import Tariff.Json.Lexer
import Tariff.Json.Writer
import Tariff.Proofs.Layout

/-!
# Numbers are read as they were written

* `Literal.chars`: the parts of a number as text. `Literal.WellFormed`: parts that make up a number.
* `scanNumber_chars`: the parts are found again, whatever follows that cannot go on with a number.
* `scanNumber_text`, `scanNumber_intText`: floats and whole numbers read back.
-/

namespace Tariff.Json

open Number Text

variable {rest : List Char} {l : Literal} {n : Numeral}

/-- No number goes on with this text. -/
def EndsNumber (rest : List Char) : Prop :=
  ∀ c ∈ rest.head?, isDigit c = false ∧ c ≠ '.' ∧ c ≠ 'e' ∧ c ≠ 'E'

/-- A power of ten behind the digits. -/
def exponentChars : Option ℤ → List Char
  | none => []
  | some e => 'e' :: (if e < 0 then '-' else '+') :: digits e.natAbs

/-- The text of the parts without the sign. -/
def Literal.chars (l : Literal) : List Char :=
  l.whole ++ (l.places.elim [] ('.' :: ·) ++ exponentChars l.exponent)

/-- Parts that make up a number. -/
structure Literal.WellFormed (l : Literal) : Prop where
  whole_ne_nil : l.whole ≠ []
  isDigit_whole : ∀ c ∈ l.whole, isDigit c = true
  length_whole : l.whole.head? = some '0' → l.whole.length = 1
  places_ne_nil : ∀ ds ∈ l.places, ds ≠ []
  isDigit_places : ∀ ds ∈ l.places, ∀ c ∈ ds, isDigit c = true

/-! ## Scanning -/

theorem scanDigits_append {ds : List Char} (hne : ds ≠ []) (hds : ∀ c ∈ ds, isDigit c = true)
    (hrest : ∀ c ∈ rest.head?, isDigit c = false) : scanDigits (ds ++ rest) = some (ds, rest) := by
  have htake : rest.takeWhile isDigit = [] := by
    cases rest with
    | nil => rfl
    | cons c cs => rw [List.takeWhile_cons, hrest c rfl]; rfl
  have hdrop : rest.dropWhile isDigit = rest := by
    cases rest with
    | nil => rfl
    | cons c cs => rw [List.dropWhile_cons, hrest c rfl]; rfl
  unfold scanDigits
  rw [List.takeWhile_append_of_pos hds, List.dropWhile_append_of_pos hds, htake, hdrop,
    List.append_nil]
  cases ds with
  | nil => exact absurd rfl hne
  | cons c cs => rfl

theorem isDigit_exponentChars (hrest : EndsNumber rest) (e : Option ℤ) :
    ∀ c ∈ (exponentChars e ++ rest).head?, isDigit c = false := by
  cases e with
  | none => exact fun c hc => (hrest c hc).1
  | some e =>
    intro c hc
    cases hc
    rfl

theorem scanPlaces_chars (hrest : EndsNumber rest) (h : l.WellFormed) :
    scanPlaces (l.places.elim [] ('.' :: ·) ++ exponentChars l.exponent ++ rest) =
      some (l.places, exponentChars l.exponent ++ rest) := by
  have hafter := isDigit_exponentChars hrest l.exponent
  cases hp : l.places with
  | none =>
    rw [Option.elim_none, List.nil_append]
    unfold scanPlaces
    split
    · rename_i tail heq
      cases he : l.exponent with
      | none =>
        rw [he] at heq
        exact absurd rfl (hrest '.' (by rw [show rest = '.' :: tail from heq]; rfl)).2.1
      | some e =>
        rw [he] at heq
        cases heq
    · rfl
  | some ds =>
    rw [Option.elim_some, List.append_assoc, List.cons_append]
    have hpoint (cs : List Char) :
        scanPlaces ('.' :: cs) = (scanDigits cs).map fun p => (some p.1, p.2) := rfl
    rw [hpoint, scanDigits_append (h.places_ne_nil ds hp) (h.isDigit_places ds hp) hafter]
    rfl

theorem scanExponent_chars (hrest : EndsNumber rest) (e : Option ℤ) :
    scanExponent (exponentChars e ++ rest) = some (e, rest) := by
  cases e with
  | none =>
    cases rest with
    | nil => rfl
    | cons c cs =>
      obtain ⟨-, -, he, hE⟩ := hrest c rfl
      unfold exponentChars scanExponent
      rw [List.nil_append]
      simp only [he, hE, or_self, if_false]
  | some e =>
    have hscan : scanDigits (digits e.natAbs ++ rest) = some (digits e.natAbs, rest) :=
      scanDigits_append (digits_ne_nil e.natAbs) (fun c hc => isDigit_of_mem_digits hc)
        fun c hc => (hrest c hc).1
    unfold exponentChars scanExponent
    rw [List.cons_append, List.cons_append]
    split_ifs with hneg
    · have habs : |e| = -e := abs_of_neg hneg
      simp [hscan, value_digits, habs]
    · have habs : |e| = e := abs_of_nonneg (not_lt.mp hneg)
      simp [hscan, value_digits, habs]

theorem scanUnsigned_chars (hrest : EndsNumber rest) (h : l.WellFormed) :
    scanUnsigned l.negative (l.chars ++ rest) = some (l, rest) := by
  have hafter : ∀ c ∈ (l.places.elim [] ('.' :: ·) ++ exponentChars l.exponent ++ rest).head?,
      isDigit c = false := by
    cases hp : l.places with
    | none => exact isDigit_exponentChars hrest l.exponent
    | some ds =>
      intro c hc
      cases hc
      rfl
  have hzero : ¬ (l.whole.head? = some '0' ∧ l.whole.length ≠ 1) :=
    fun ⟨hhead, hlen⟩ => hlen (h.length_whole hhead)
  unfold scanUnsigned Literal.chars
  rw [List.append_assoc, scanDigits_append h.whole_ne_nil h.isDigit_whole hafter]
  simp only [Option.bind_eq_bind, Option.bind_some, if_neg hzero, scanPlaces_chars hrest h,
    scanExponent_chars hrest]

/-- The parts of a number are found again. -/
theorem scanNumber_chars (hrest : EndsNumber rest) (h : l.WellFormed) :
    scanNumber (signChars l.negative ++ l.chars ++ rest) = some (l, rest) := by
  have hscan := scanUnsigned_chars hrest h
  unfold scanNumber signChars
  cases hneg : l.negative with
  | true =>
    rw [hneg] at hscan
    exact hscan
  | false =>
    rw [hneg] at hscan
    rw [if_neg (by decide), List.nil_append]
    split
    · rename_i tail heq
      -- A number starts with a digit, which is no sign.
      obtain ⟨c, cs, hc⟩ := List.exists_cons_of_ne_nil h.whole_ne_nil
      unfold Literal.chars at heq
      rw [hc] at heq
      cases heq
      exact absurd (h.isDigit_whole '-' (by rw [hc]; exact List.mem_cons_self)) (by decide)
    · exact hscan

/-! ## What is written -/

/-- A whole number with a power of ten as a rational number. -/
theorem Literal.abs_numeral (l : Literal) : l.numeral.abs =
    value (l.whole ++ l.places.getD []) * 10 ^ (l.exponent.getD 0 - (l.places.getD []).length) := rfl

/-- A number without a power of ten has a point. -/
theorem exists_literal_plain (hn : n.digits = 0 → n.exponent = 0) :
    ∃ l : Literal, l.WellFormed ∧ numberLayout.plain n = l.chars ∧ l.negative = n.negative ∧
      l.numeral.abs = n.abs ∧ l.places.isSome = true := by
  obtain ⟨whole, places, heq, hwhole, hplaces, hdigits, hhead, habs⟩ :=
    numberLayout.plain_parts rfl hn
  refine ⟨⟨n.negative, whole, some places, none⟩, ⟨hwhole, ?_, hhead, ?_, ?_⟩, ?_, rfl, habs, rfl⟩
  · exact fun c hc => hdigits c (List.mem_append_left _ hc)
  · rintro ds ⟨⟩
    exact hplaces
  · rintro ds ⟨⟩ c hc
    exact hdigits c (List.mem_append_right _ hc)
  · rw [heq]
    unfold Literal.chars exponentChars
    rw [Option.elim_some, List.append_nil]

/-- A number with a power of ten has one digit in front of the point. -/
theorem exists_literal_scientific (n : Numeral) :
    ∃ l : Literal, l.WellFormed ∧ Layout.scientific n = l.chars ∧ l.negative = n.negative ∧
      l.numeral.abs = n.abs ∧ l.exponent.isSome = true := by
  obtain ⟨c, cs, hc⟩ := List.exists_cons_of_ne_nil (digits_ne_nil n.digits)
  have hdigits : ∀ d ∈ c :: cs, isDigit d = true := by
    rw [← hc]
    exact fun d hd => isDigit_of_mem_digits hd
  have hvalue : value (c :: cs) = n.digits := by rw [← hc, value_digits]
  have horder : Layout.order n = n.exponent + cs.length := by
    unfold Layout.order
    rw [hc, List.length_cons]
    push_cast
    ring
  have habs (l : Literal) (hl : l.whole ++ l.places.getD [] = c :: cs)
      (he : l.exponent = some (Layout.order n)) (hp : (l.places.getD []).length = cs.length) :
      l.numeral.abs = n.abs := by
    rw [Literal.abs_numeral, Numeral.abs, hl, he, hp, hvalue, horder, Option.getD_some]
    congr 2
    omega
  unfold Layout.scientific
  rw [hc]
  cases cs with
  | nil =>
    refine ⟨⟨n.negative, [c], none, some (Layout.order n)⟩, ⟨List.cons_ne_nil _ _, hdigits,
      fun _ => rfl, nofun, nofun⟩, rfl, rfl, habs _ rfl rfl rfl, rfl⟩
  | cons d ds =>
    refine ⟨⟨n.negative, [c], some (d :: ds), some (Layout.order n)⟩, ⟨List.cons_ne_nil _ _, ?_,
      fun _ => rfl, ?_, ?_⟩, rfl, rfl, habs _ rfl rfl rfl, rfl⟩
    · rintro e he
      exact hdigits e (List.mem_cons.mpr (.inl (List.mem_singleton.mp he)))
    · rintro _ ⟨⟩
      exact List.cons_ne_nil _ _
    · rintro _ ⟨⟩ e he
      exact hdigits e (List.mem_cons_of_mem _ he)

/-- A float is read as it was written. -/
theorem scanNumber_text (hrest : EndsNumber rest) {x : Float} (hx : x.isFinite = true) :
    ∃ l : Literal, scanNumber ((numberLayout.text x).toList ++ rest) = some (l, rest) ∧
      l.document = .real x := by
  obtain ⟨n, hfloat, hzero, htext⟩ := numberLayout.exists_numeral_text hx
  have hliteral : ∃ l : Literal, l.WellFormed ∧
      (if numberLayout.isPlain (Layout.order n) then numberLayout.plain n else Layout.scientific n) =
        l.chars ∧ l.negative = n.negative ∧ l.numeral.abs = n.abs ∧
      (l.places.isSome = true ∨ l.exponent.isSome = true) := by
    split
    · obtain ⟨l, hl, hchars, hneg, habs, hplaces⟩ := exists_literal_plain hzero
      exact ⟨l, hl, hchars, hneg, habs, .inl hplaces⟩
    · obtain ⟨l, hl, hchars, hneg, habs, hexp⟩ := exists_literal_scientific n
      exact ⟨l, hl, hchars, hneg, habs, .inr hexp⟩
  obtain ⟨l, hl, hchars, hneg, habs, hsome⟩ := hliteral
  refine ⟨l, ?_, ?_⟩
  · rw [htext, hchars, ← hneg]
    exact scanNumber_chars hrest hl
  · have hfloat : l.numeral.toFloat = x := (toFloat_congr hneg habs).trans hfloat
    have hreal : (l.places.isNone && l.exponent.isNone) = false := by
      rcases hsome with h | h
      · rw [Option.isSome_iff_exists] at h
        obtain ⟨ds, hds⟩ := h
        rw [hds]
        rfl
      · rw [Option.isSome_iff_exists] at h
        obtain ⟨e, he⟩ := h
        rw [he]
        exact Bool.and_false _
    unfold Literal.document finiteReal
    rw [hreal, hfloat, if_neg (by decide), if_pos hx]

/-- A whole number is read as it was written. -/
theorem scanNumber_intText (hrest : EndsNumber rest) {i : ℤ} (hlow : -2 ^ 63 ≤ i)
    (hhigh : i < 2 ^ 64) :
    ∃ l : Literal, scanNumber ((intText i).toList ++ rest) = some (l, rest) ∧
      l.document = .integer i := by
  have hform (negative : Bool) (k : ℕ) : (⟨negative, digits k, none, none⟩ : Literal).WellFormed :=
    ⟨digits_ne_nil k, fun c hc => isDigit_of_mem_digits hc, length_digits_of_head, nofun, nofun⟩
  have hchars (negative : Bool) (k : ℕ) :
      (⟨negative, digits k, none, none⟩ : Literal).chars = digits k := List.append_nil _
  cases i with
  | ofNat k =>
    refine ⟨⟨false, digits k, none, none⟩, ?_, ?_⟩
    · have hscan := scanNumber_chars hrest (hform false k)
      rw [hchars] at hscan
      unfold intText natText
      rw [String.toList_ofList]
      exact hscan
    · have hk : k < 2 ^ 64 := by
        rw [Int.ofNat_eq_natCast] at hhigh
        exact_mod_cast hhigh
      unfold Literal.document
      simp only [Option.isNone_none, Bool.and_self, if_true, value_digits, Bool.false_eq_true,
        if_false]
      exact if_pos hk
  | negSucc k =>
    refine ⟨⟨true, digits (k + 1), none, none⟩, ?_, ?_⟩
    · have hscan := scanNumber_chars hrest (hform true (k + 1))
      rw [hchars] at hscan
      unfold intText natText
      simp only [String.toList_append, String.toList_ofList]
      exact hscan
    · have hk : k + 1 ≤ 2 ^ 63 := by
        rw [Int.negSucc_eq] at hlow
        omega
      have hrange : (decide (0 < k + 1) && decide (k + 1 ≤ 2 ^ 63)) = true := by
        rw [Bool.and_eq_true, decide_eq_true_eq, decide_eq_true_eq]
        exact ⟨Nat.succ_pos k, hk⟩
      unfold Literal.document
      simp only [Option.isNone_none, Bool.and_self, if_true, value_digits]
      exact if_pos hrange

end Tariff.Json
