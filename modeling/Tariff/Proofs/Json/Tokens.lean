import Tariff.Json.Basic
import Tariff.Proofs.Json.Number

/-!
# The tokens of what is written

* `scanPieces_escape`: the characters of a string are found again, whatever they are.
* `Fits`: whole numbers of a value are of 64 bits.
* `spelled`: the tokens of a value. `tokens_write`: they are the tokens of its text, at any place.
-/

namespace Tariff.Json

open Number Text

variable {rest : List Char}

/-! ## Strings -/

theorem numberIn?_hexDigit {n : ℕ} (h : n < 32) :
    numberIn? 16 ['0', '0', hexDigit (n / 16), hexDigit (n % 16)] = some n := by
  have table : ∀ k : Fin 32, numberIn? 16 ['0', '0', hexDigit (k / 16), hexDigit (k % 16)] =
      some k.val := by decide
  exact table ⟨n, h⟩

/-- An ordinary character stands for itself. -/
theorem scanPieces_cons {c : Char} (hquote : c ≠ '"') (hslash : c ≠ '\\') (hcontrol : ¬ c.toNat < 32)
    (rest : List Char) :
    scanPieces (c :: rest) = (scanPieces rest).map fun p => (.char c :: p.1, p.2) := by
  rw [scanPieces.eq_def]
  split <;> simp_all

/-- A character is escaped by a letter or by its number, or stands for itself. -/
theorem escapeChar_cases (c : Char) :
    (∃ e, escapeChar c = ['\\', e] ∧ escaped? e = some c ∧ e ≠ 'u') ∨
    (c.toNat < 32 ∧ escapeChar c =
      ['\\', 'u', '0', '0', hexDigit (c.toNat / 16), hexDigit (c.toNat % 16)]) ∨
    (c ≠ '"' ∧ c ≠ '\\' ∧ ¬ c.toNat < 32 ∧ escapeChar c = [c]) := by
  unfold escapeChar
  split_ifs with hquote hslash hback htab hline hform hreturn hcontrol
  · exact .inl ⟨'"', rfl, by rw [hquote]; rfl, by decide⟩
  · exact .inl ⟨'\\', rfl, by rw [hslash]; rfl, by decide⟩
  · exact .inl ⟨'b', rfl, by rw [hback]; rfl, by decide⟩
  · exact .inl ⟨'t', rfl, by rw [htab]; rfl, by decide⟩
  · exact .inl ⟨'n', rfl, by rw [hline]; rfl, by decide⟩
  · exact .inl ⟨'f', rfl, by rw [hform]; rfl, by decide⟩
  · exact .inl ⟨'r', rfl, by rw [hreturn]; rfl, by decide⟩
  · exact .inr (.inl ⟨hcontrol, rfl⟩)
  · exact .inr (.inr ⟨hquote, hslash, hcontrol, rfl⟩)

theorem scanPieces_escapeChar (c : Char) (rest : List Char) :
    scanPieces (escapeChar c ++ rest) = (scanPieces rest).map fun p => (.char c :: p.1, p.2) := by
  obtain ⟨e, hescape, he, hu⟩ | ⟨hcontrol, hescape⟩ | ⟨hquote, hslash, hcontrol, hescape⟩ :=
    escapeChar_cases c
  · -- Only a number starts with a `u`.
    have hnumber : ∀ a b d f tail, e = 'u' → rest = a :: b :: d :: f :: tail → False :=
      fun _ _ _ _ _ h _ => hu h
    rw [hescape, List.cons_append, List.cons_append, List.nil_append,
      scanPieces.eq_3 _ _ hnumber, he, Option.map_eq_bind]
    rfl
  · have hunit : Piece.ofUnit c.toNat = .char c := by
      unfold Piece.ofUnit
      rw [if_neg (by omega), Char.ofNat_toNat]
    rw [hescape]
    simp only [List.cons_append, List.nil_append]
    rw [scanPieces, numberIn?_hexDigit hcontrol]
    simp only [Option.bind_eq_bind, Option.bind_some, hunit]
    cases scanPieces rest <;> rfl
  · rw [hescape]
    exact scanPieces_cons hquote hslash hcontrol rest

/-- The characters between quotes are found again. -/
theorem scanPieces_escape (cs rest : List Char) :
    scanPieces (escape cs ++ '"' :: rest) = some (cs.map .char, rest) := by
  induction cs with
  | nil => rw [escape, List.flatMap_nil, List.nil_append, scanPieces]; rfl
  | cons c cs ih =>
    unfold escape at ih ⊢
    rw [List.flatMap_cons, List.append_assoc, scanPieces_escapeChar, ih]
    rfl

theorem stringOf_map (cs : List Char) : stringOf (cs.map .char) = some (String.ofList cs) := by
  have hpair : pairUp (cs.map .char) = some cs := by
    induction cs with
    | nil => rfl
    | cons c cs ih =>
      rw [List.map_cons, pairUp, ih]
      rfl
  unfold stringOf
  rw [hpair]
  rfl

/-! ## Scanning a token after another -/

theorem tokens_space {c : Char} (h : isSpace c = true) (rest : List Char) :
    tokens (c :: rest) = tokens rest := by
  rw [tokens, if_pos h]

theorem tokens_cons {c : Char} {cs : List Char} {t : Token} (hspace : isSpace c = false)
    (h : scanToken (c :: cs) = some (t, rest)) : tokens (c :: cs) = t :: tokens rest := by
  rw [tokens, hspace, if_neg (by decide)]
  split
  · rename_i hnone
    rw [hnone] at h
    cases h
  · rename_i t' rest' hsome
    rw [hsome] at h
    cases h
    rfl

theorem tokens_break (place : Place) (rest : List Char) :
    tokens (place.break ++ rest) = tokens rest := by
  cases place with
  | inline => rfl
  | line depth =>
    have hblanks (k : ℕ) : tokens (List.replicate k ' ' ++ rest) = tokens rest := by
      induction k with
      | zero => rfl
      | succ k ih => exact (tokens_space (by decide) _).trans ih
    exact (tokens_space (by decide) _).trans (hblanks _)

theorem tokens_colon (place : Place) (rest : List Char) :
    tokens (place.colon ++ rest) = .colon :: tokens rest := by
  cases place with
  | inline => exact tokens_cons (by decide) rfl
  | line depth =>
    have hcolon : tokens (':' :: ' ' :: rest) = .colon :: tokens (' ' :: rest) :=
      tokens_cons (by decide) rfl
    exact hcolon.trans (by rw [tokens_space (by decide)])

/-- A string is one token. -/
theorem tokens_quoted (s : String) (rest : List Char) :
    tokens (quoted s ++ rest) = .string (some s) :: tokens rest := by
  have hscan : scanToken ('"' :: (escape s.toList ++ '"' :: rest)) =
      some (.string (some s), rest) := by
    rw [scanToken, scanPieces_escape]
    simp only [Option.map_some, stringOf_map, String.ofList_toList]
  unfold quoted
  simp only [List.cons_append, List.append_assoc, List.nil_append]
  exact tokens_cons (by decide) hscan

/-- A number starts with a sign or a digit. -/
theorem head_of_scanNumber {cs : List Char} {l : Literal} (h : scanNumber cs = some (l, rest)) :
    ∃ c tail, cs = c :: tail ∧ (c = '-' ∨ isDigit c = true) := by
  unfold scanNumber at h
  split at h
  · exact ⟨'-', _, rfl, .inl rfl⟩
  · cases cs with
    | nil => cases h
    | cons c tail =>
      refine ⟨c, tail, rfl, .inr ?_⟩
      by_contra hc
      unfold scanUnsigned scanDigits at h
      rw [List.takeWhile_cons, if_neg hc] at h
      cases h

/-- A number is one token. -/
theorem tokens_of_scanNumber {cs : List Char} {l : Literal} (h : scanNumber cs = some (l, rest)) :
    tokens cs = .scalar l.document :: tokens rest := by
  obtain ⟨c, tail, rfl, hc⟩ := head_of_scanNumber h
  have hspace : isSpace c = false := by
    by_contra hspace
    unfold isSpace at hspace
    simp only [Bool.not_eq_false, Bool.or_eq_true, beq_iff_eq] at hspace
    rcases hspace with ((rfl | rfl) | rfl) | rfl <;> exact absurd hc (by decide)
  have hscan : scanToken (c :: tail) = (scanNumber (c :: tail)).map fun p =>
      (.scalar p.1.document, p.2) := by
    rw [scanToken.eq_def]
    -- Every other token starts with neither.
    split <;> first
      | rfl
      | (rename_i heq
         cases heq <;> exact absurd hc (by decide))
  rw [h] at hscan
  exact tokens_cons hspace hscan

/-! ## The tokens of a value -/

mutual

/-- Whole numbers of the value are of 64 bits. -/
def Fits : Json → Prop
  | integer n => -2 ^ 63 ≤ n ∧ n < 2 ^ 64
  | array items => ItemsFit items
  | object fields => FieldsFit fields
  | _ => True

/-- Whole numbers of the values are of 64 bits. -/
def ItemsFit : List Json → Prop
  | [] => True
  | v :: vs => Fits v ∧ ItemsFit vs

/-- Whole numbers of the fields are of 64 bits. -/
def FieldsFit : List (String × Json) → Prop
  | [] => True
  | (_, v) :: vs => Fits v ∧ FieldsFit vs

end

mutual

/-- The tokens of a value. -/
def spelled : Json → List Token
  | null => [.scalar .null]
  | bool value => [.scalar (.flag value)]
  | integer value => [.scalar (.integer value)]
  | real value => [.scalar (if value.isFinite then .real value else .null)]
  | string value => [.string (some value)]
  | array items => .openArray :: (spelledItems items ++ [.closeArray])
  | object fields => .openObject :: (spelledFields fields ++ [.closeObject])

/-- The tokens of items with commas between them. -/
def spelledItems : List Json → List Token
  | [] => []
  | [v] => spelled v
  | v :: vs => spelled v ++ .comma :: spelledItems vs

/-- The tokens of fields with commas between them. -/
def spelledFields : List (String × Json) → List Token
  | [] => []
  | [(key, v)] => .string (some key) :: .colon :: spelled v
  | (key, v) :: vs => .string (some key) :: .colon :: (spelled v ++ .comma :: spelledFields vs)

end

/-- What closes a value, or separates it from the next, ends a number. -/
theorem endsNumber_cons {c : Char} (h : c = ',' ∨ c = ']' ∨ c = '\x7d') (rest : List Char) :
    EndsNumber (c :: rest) := by
  rintro d ⟨⟩
  rcases h with rfl | rfl | rfl <;> decide

theorem endsNumber_break {c : Char} (h : c = ',' ∨ c = ']' ∨ c = '\x7d') (place : Place)
    (rest : List Char) : EndsNumber (place.break ++ c :: rest) := by
  cases place with
  | inline => exact endsNumber_cons h rest
  | line depth =>
    rintro d ⟨⟩
    decide

/-- A bracket or a comma is one token. -/
theorem tokens_mark (rest : List Char) :
    tokens ('[' :: rest) = .openArray :: tokens rest ∧
    tokens (']' :: rest) = .closeArray :: tokens rest ∧
    tokens ('\x7b' :: rest) = .openObject :: tokens rest ∧
    tokens ('\x7d' :: rest) = .closeObject :: tokens rest ∧
    tokens (',' :: rest) = .comma :: tokens rest := by
  refine ⟨?_, ?_, ?_, ?_, ?_⟩ <;> exact tokens_cons (by decide) rfl

mutual

/-- The text of a value has the tokens of the value, at any place. -/
theorem tokens_write (place : Place) : (v : Json) → (rest : List Char) → Fits v →
    EndsNumber rest → tokens (write place v ++ rest) = spelled v ++ tokens rest
  | null, _, _, _ => tokens_cons (by decide) rfl
  | bool true, _, _, _ => tokens_cons (by decide) rfl
  | bool false, _, _, _ => tokens_cons (by decide) rfl
  | integer n, rest, hfit, hrest => by
    obtain ⟨l, hscan, hl⟩ := scanNumber_intText hrest hfit.1 hfit.2
    rw [write, tokens_of_scanNumber hscan, hl]
    rfl
  | real x, rest, _, hrest => by
    rw [write, spelled]
    by_cases hx : x.isFinite = true
    · obtain ⟨l, hscan, hl⟩ := scanNumber_text hrest hx
      rw [if_pos hx, if_pos hx, tokens_of_scanNumber hscan, hl]
      rfl
    · rw [if_neg hx, if_neg hx]
      exact tokens_cons (by decide) rfl
  | string s, rest, _, _ => tokens_quoted s rest
  | array [], rest, _, _ => by
    rw [write, spelled, spelledItems]
    simp only [List.cons_append, List.nil_append, tokens_mark]
  | array (v :: vs), rest, hfit, _ => by
    have hitems := tokens_writeItems place.inner (v :: vs) (place.break ++ ']' :: rest)
      (List.cons_ne_nil v vs) hfit (endsNumber_break (.inr (.inl rfl)) place rest)
    rw [write, spelled]
    · simp only [List.cons_append, List.append_assoc, List.nil_append, tokens_mark, hitems,
        tokens_break]
    · exact List.cons_ne_nil v vs
  | object [], rest, _, _ => by
    rw [write, spelled, spelledFields]
    simp only [List.cons_append, List.nil_append, tokens_mark]
  | object (f :: fs), rest, hfit, _ => by
    have hfields := tokens_writeFields place.inner (f :: fs) (place.break ++ '\x7d' :: rest)
      (List.cons_ne_nil f fs) hfit (endsNumber_break (.inr (.inr rfl)) place rest)
    rw [write, spelled]
    · simp only [List.cons_append, List.append_assoc, List.nil_append, tokens_mark, hfields,
        tokens_break]
    · exact List.cons_ne_nil f fs

/-- The items of a list, written at any place, have their tokens with commas between them. -/
theorem tokens_writeItems (place : Place) : (vs : List Json) → (rest : List Char) → vs ≠ [] →
    ItemsFit vs → EndsNumber rest →
    tokens (writeItems place vs ++ rest) = spelledItems vs ++ tokens rest
  | [v], rest, _, hfit, hrest => by
    rw [writeItems, spelledItems, List.append_assoc, tokens_break,
      tokens_write place v rest hfit.1 hrest]
  | v :: w :: vs, rest, _, hfit, hrest => by
    have hcomma := endsNumber_cons (.inl rfl) (writeItems place (w :: vs) ++ rest)
    rw [writeItems, spelledItems]
    · simp only [List.append_assoc, List.cons_append]
      rw [tokens_break, tokens_write place v _ hfit.1 hcomma, (tokens_mark _).2.2.2.2,
        tokens_writeItems place (w :: vs) rest (List.cons_ne_nil w vs) hfit.2 hrest]
    all_goals exact List.cons_ne_nil w vs

/-- The fields of a record, written at any place, have their tokens with commas between them. -/
theorem tokens_writeFields (place : Place) : (fs : List (String × Json)) → (rest : List Char) →
    fs ≠ [] → FieldsFit fs → EndsNumber rest →
    tokens (writeFields place fs ++ rest) = spelledFields fs ++ tokens rest
  | [(key, v)], rest, _, hfit, hrest => by
    rw [writeFields, spelledFields]
    simp only [List.append_assoc, List.cons_append]
    rw [tokens_break, tokens_quoted, tokens_colon, tokens_write place v rest hfit.1 hrest]
  | (key, v) :: f :: fs, rest, _, hfit, hrest => by
    have hcomma := endsNumber_cons (.inl rfl) (writeFields place (f :: fs) ++ rest)
    rw [writeFields, spelledFields]
    · simp only [List.append_assoc, List.cons_append]
      rw [tokens_break, tokens_quoted, tokens_colon, tokens_write place v _ hfit.1 hcomma,
        (tokens_mark _).2.2.2.2,
        tokens_writeFields place (f :: fs) rest (List.cons_ne_nil f fs) hfit.2 hrest]
    all_goals exact List.cons_ne_nil f fs

end

end Tariff.Json
