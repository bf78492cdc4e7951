import Tariff.Proofs.Layout
import Tariff.Toml.Lexer
import Tariff.Toml.Writer

/-!
# Words are read as they were written

* `Spells`: characters that are one word, and what the word stands for.
* `spells_text`: every float is read as it was written, also one that is no finite number.
* `spells_intText`: so is every whole number of 64 bits, one of them for the sign.
-/

namespace Tariff.Toml

open Number Text

variable {cs : List Char} {n : Numeral}

/-- The characters are a word, and what it stands for. -/
structure Spells (cs : List Char) (d : Document) : Prop where
  chars : ∀ c ∈ cs, isWordChar c = true
  value : wordValue? cs = some d

theorem Spells.ne_nil {d : Document} (h : Spells cs d) : cs ≠ [] := by
  rintro rfl
  cases h.value

/-! ## Digits -/

theorem isWordChar_of_isDigit {c : Char} (h : isDigit c = true) : isWordChar c = true := by
  have hdigit : c.isDigit = true := by
    simpa [isDigit, Char.isDigit, UInt32.le_iff_toNat_le] using h
  simp [isWordChar, Char.isAlphanum, hdigit]

theorem isWordChar_signChars {negative : Bool} : ∀ c ∈ signChars negative, isWordChar c = true := by
  cases negative <;> simp [signChars, isWordChar]

/-- Characters without underscores are not taken apart. -/
theorem ungrouped?_eq {p : Char → Bool} (h : '_' ∉ cs) :
    ungrouped? p cs = if cs ≠ [] ∧ ∀ c ∈ cs, p c = true then some cs else none := by
  simp [ungrouped?, List.splitOn_eq_singleton h]

theorem ungrouped?_of_digits (hne : cs ≠ []) (h : ∀ c ∈ cs, isDigit c = true) :
    ungrouped? isDigit cs = some cs := by
  rw [ungrouped?_eq (notMem_of_isDigit (by decide) h), if_pos ⟨hne, h⟩]

theorem decimalDigits?_of_digits (hne : cs ≠ []) (h : ∀ c ∈ cs, isDigit c = true)
    (hhead : cs.head? = some '0' → cs.length = 1) : decimalDigits? cs = some cs := by
  rw [decimalDigits?, ungrouped?_of_digits hne h, Option.bind_some, if_neg]
  rintro ⟨hzero, hlen⟩
  exact hlen (hhead hzero)

theorem isDigit_ne {c d : Char} (h : isDigit c = true) (hd : isDigit d = false) : c ≠ d := by
  rintro rfl
  simp [h] at hd

theorem takeSign_signChars (negative : Bool) (h : ∀ c ∈ cs.head?, isDigit c = true) :
    takeSign (signChars negative ++ cs) = (negative, cs) := by
  cases negative with
  | true => rfl
  | false =>
    cases cs with
    | nil => rfl
    | cons c cs =>
      have hc := h c rfl
      unfold takeSign signChars
      simp only [Bool.false_eq_true, if_false, List.nil_append]
      split
      · rename_i heq
        cases heq
        exact absurd hc (by decide)
      · rename_i heq
        cases heq
        exact absurd hc (by decide)
      · rfl

/-! ## What a word is not -/

/-- Dates have a dash and times a colon behind their first character. -/
theorem isMoment_eq_false (h : ∀ c ∈ cs.tail, c ≠ '-' ∧ c ≠ ':') : isMoment cs = false := by
  have hdate (ds : List Char) (hds : ∀ c ∈ ds.tail, c ≠ '-') : isDate ds = false := by
    unfold isDate
    split
    · simp at hds
    · rfl
  have htime : takeTime? cs = none := by
    unfold takeTime?
    split
    · simp at h
    · rfl
  have htake : ∀ c ∈ (cs.take 10).tail, c ≠ '-' := by
    intro c hc
    refine (h c ?_).1
    cases cs with
    | nil => simp at hc
    | cons d ds => exact List.mem_of_mem_take (by simpa using hc)
  simp [isMoment, hdate cs fun c hc => (h c hc).1, hdate _ htake, htime]

/-- Behind its sign, a number starts with a digit, and no letter or dash stands in it. -/
structure IsNumeral (cs : List Char) : Prop where
  digit : ∃ c tail, cs = c :: tail ∧ isDigit c = true
  plain : ∀ c ∈ cs, isDigit c = true ∨ c = '.'

namespace IsNumeral

theorem head (h : IsNumeral cs) : ∀ c ∈ cs.head?, isDigit c = true := by
  obtain ⟨c, tail, rfl, hc⟩ := h.digit
  simpa using hc

theorem ne (h : IsNumeral cs) {word : List Char} (negative : Bool)
    (hword : ∀ c ∈ word.head?, isDigit c = false ∧ c ≠ '-') : signChars negative ++ cs ≠ word := by
  obtain ⟨c, tail, rfl, hc⟩ := h.digit
  rintro rfl
  cases negative with
  | true => simp [signChars] at hword
  | false => simp [signChars, hc] at hword

/-- A number is no word for yes or no, and no moment. -/
theorem wordValue?_eq (h : IsNumeral cs) (negative : Bool) :
    wordValue? (signChars negative ++ cs) =
      match integerWord? (signChars negative ++ cs) with
      | some n => some (.integer n)
      | none => (floatWord? (signChars negative ++ cs)).map .real := by
  have hmoment : isMoment (signChars negative ++ cs) = false := by
    have hplain (c : Char) (hc : c ∈ cs) : c ≠ '-' ∧ c ≠ ':' := by
      rcases h.plain c hc with hdigit | rfl
      · exact ⟨isDigit_ne hdigit (by decide), isDigit_ne hdigit (by decide)⟩
      · decide
    refine isMoment_eq_false fun c hc => hplain c ?_
    cases negative with
    | true => exact hc
    | false => exact List.mem_of_mem_tail hc
  unfold wordValue?
  rw [if_neg (h.ne negative (by simp; decide)), if_neg (h.ne negative (by simp; decide)), hmoment]
  rfl

/-- Without a letter behind its first zero, a number is in base ten. -/
theorem integerWord?_eq (h : IsNumeral cs) (negative : Bool) :
    integerWord? (signChars negative ++ cs) = (decimalDigits? cs).bind fun digits =>
      inRange? (if negative then -(value digits : ℤ) else value digits) := by
  have hletter (c : Char) (hc : isDigit c = false ∧ c ≠ '.') (d : Char) (tail : List Char) :
      signChars negative ++ cs ≠ d :: c :: tail := by
    intro heq
    have hmem : c ∈ cs := by
      cases negative with
      | true =>
        simp only [signChars, if_true, List.cons_append, List.nil_append, List.cons.injEq] at heq
        simp [heq.2]
      | false =>
        simp only [signChars, Bool.false_eq_true, if_false, List.nil_append] at heq
        simp [heq]
    rcases h.plain c hmem with hdigit | hpoint
    · simp [hdigit] at hc
    · exact hc.2 hpoint
  unfold integerWord?
  split
  · exact absurd ‹_› (hletter 'x' (by decide) _ _)
  · exact absurd ‹_› (hletter 'o' (by decide) _ _)
  · exact absurd ‹_› (hletter 'b' (by decide) _ _)
  · simp only [takeSign_signChars negative h.head]

end IsNumeral

/-! ## Whole numbers -/

theorem isNumeral_digits (k : ℕ) : IsNumeral (digits k) := by
  obtain ⟨c, tail, hc⟩ := List.exists_cons_of_ne_nil (digits_ne_nil k)
  have hdigits : ∀ d ∈ digits k, isDigit d = true := fun d hd => isDigit_of_mem_digits hd
  exact ⟨⟨c, tail, hc, hdigits c (by simp [hc])⟩, fun d hd => .inl (hdigits d hd)⟩

theorem toList_intText (n : ℤ) :
    (intText n).toList = signChars (decide (n < 0)) ++ digits n.natAbs := by
  cases n with
  | ofNat k => simp [intText, natText, signChars]
  | negSucc k => simp [intText, natText, signChars, Int.negSucc_lt_zero]

/-- A whole number of 64 bits, one of them for the sign, is read as it was written. -/
theorem spells_intText {n : ℤ} (hlow : -2 ^ 63 ≤ n) (hhigh : n < 2 ^ 63) :
    Spells (intText n).toList (.integer n) := by
  have hdigits : decimalDigits? (digits n.natAbs) = some (digits n.natAbs) :=
    decimalDigits?_of_digits (digits_ne_nil _) (fun c hc => isDigit_of_mem_digits hc)
      length_digits_of_head
  have hvalue : (if decide (n < 0) = true then -(value (digits n.natAbs) : ℤ)
      else value (digits n.natAbs)) = n := by
    rw [value_digits]
    simp only [decide_eq_true_eq]
    omega
  rw [toList_intText]
  refine ⟨?chars, ?value⟩
  case chars =>
    intro c hc
    rcases List.mem_append.mp hc with hc | hc
    · exact isWordChar_signChars c hc
    · exact isWordChar_of_isDigit (isDigit_of_mem_digits hc)
  case value =>
    rw [(isNumeral_digits _).wordValue?_eq, (isNumeral_digits _).integerWord?_eq, hdigits,
      Option.bind_some, hvalue, inRange?, if_pos ⟨hlow, hhigh⟩]

/-! ## Other numbers -/

theorem span_whole {whole rest : List Char} (hwhole : ∀ c ∈ whole, isDigit c = true) :
    (whole ++ '.' :: rest).takeWhile isWholeChar = whole ∧
      (whole ++ '.' :: rest).dropWhile isWholeChar = '.' :: rest := by
  have hchars : ∀ c ∈ whole, isWholeChar c = true := by
    intro c hc
    simp [isWholeChar, hwhole c hc]
  have hpoint : isWholeChar '.' = false := by decide
  simp [List.takeWhile_append_of_pos hchars, List.dropWhile_append_of_pos hchars, hpoint]

/-- Places without a power of ten behind them. -/
theorem fraction?_places {places : List Char} (hne : places ≠ [])
    (h : ∀ c ∈ places, isDigit c = true) : fraction? ('.' :: places) = some (places, 0) := by
  have hmark : ∀ c ∈ places, (!(c == 'e' || c == 'E')) = true := by
    intro c hc
    simp [isDigit_ne (h c hc) (show isDigit 'e' = false by decide),
      isDigit_ne (h c hc) (show isDigit 'E' = false by decide)]
  unfold fraction?
  simp only
  rw [List.takeWhile_eq_self_iff.mpr hmark, List.dropWhile_eq_nil_iff.mpr hmark,
    ungrouped?_of_digits hne h]
  rfl

/-- Digits, a point and digits are no whole number, but the number of all digits and as many places
as stand behind the point. -/
theorem spells_pointed {whole places : List Char} (negative : Bool) (hwhole : whole ≠ [])
    (hplaces : places ≠ []) (h : ∀ c ∈ whole ++ places, isDigit c = true)
    (hhead : whole.head? = some '0' → whole.length = 1) {x : Float}
    (hx : (⟨negative, value (whole ++ places), 0 - places.length⟩ : Numeral).toFloat = x)
    (hfinite : x.isFinite = true) :
    Spells (signChars negative ++ (whole ++ '.' :: places)) (.real x) := by
  have hdigits : ∀ c ∈ whole, isDigit c = true := fun c hc => h c (List.mem_append_left _ hc)
  have hnumeral : IsNumeral (whole ++ '.' :: places) := by
    obtain ⟨c, tail, rfl⟩ := List.exists_cons_of_ne_nil hwhole
    refine ⟨⟨c, tail ++ '.' :: places, rfl, hdigits c (by simp)⟩, ?_⟩
    intro d hd
    have hd : d = '.' ∨ d ∈ c :: tail ++ places := by simpa [or_left_comm] using hd
    exact hd.symm.imp_left (h d)
  have hnone : decimalDigits? (whole ++ '.' :: places) = none := by
    have hunderscore : '_' ∉ whole ++ '.' :: places := by
      intro hmem
      rcases hnumeral.plain _ hmem with hdigit | hpoint
      · exact absurd hdigit (by decide)
      · exact absurd hpoint (by decide)
    rw [decimalDigits?, ungrouped?_eq hunderscore, if_neg]
    · rfl
    · rintro ⟨-, hall⟩
      exact absurd (hall '.' (by simp)) (by decide)
  have hspecial : specialWord? (signChars negative ++ (whole ++ '.' :: places)) = none := by
    have hne (word : List Char) (hword : ∀ c ∈ word.head?, isDigit c = false ∧ c ≠ '-') :
        whole ++ '.' :: places ≠ word := hnumeral.ne false hword
    simp only [specialWord?, takeSign_signChars negative hnumeral.head]
    rw [if_neg (hne _ (by simp; decide)), if_neg (hne _ (by simp; decide))]
  have hnum : numeralWord? (signChars negative ++ (whole ++ '.' :: places)) =
      some ⟨negative, value (whole ++ places), 0 - places.length⟩ := by
    simp only [numeralWord?, takeSign_signChars negative hnumeral.head, span_whole hdigits,
      decimalDigits?_of_digits hwhole hdigits hhead, Option.bind_some,
      fraction?_places hplaces fun c hc => h c (List.mem_append_right _ hc), Option.map_some]
  have hbound : (x == 1.0 / 0.0) = false := by
    refine Bool.eq_false_iff.mpr fun heq => ?_
    obtain ⟨-, -, rfl | ⟨rfl, hzero⟩ | ⟨rfl, hzero⟩⟩ := Float.beq_iff_ne_nan_and_eq.mp heq
    · exact absurd hfinite (by decide)
    · exact absurd hzero (by decide)
    · exact absurd hzero (by decide)
  refine ⟨?chars, ?value⟩
  case chars =>
    intro c hc
    rcases List.mem_append.mp hc with hc | hc
    · exact isWordChar_signChars c hc
    · rcases hnumeral.plain c hc with hdigit | rfl
      · exact isWordChar_of_isDigit hdigit
      · decide
  case value =>
    rw [hnumeral.wordValue?_eq, hnumeral.integerWord?_eq, hnone, Option.bind_none, floatWord?,
      hspecial, hnum, Option.bind_some]
    simp only [hx, hbound]
    rfl

/-- Every float is read as it was written. -/
theorem spells_text (x : Float) : Spells (numberLayout.text x).toList (.real x) := by
  cases hshape : Shape.ofFloat x with
  | nan =>
    have hx : x = 0.0 / 0.0 := ofFloat_injective (hshape.trans (by decide +kernel))
    have htext : (numberLayout.text x).toList = ['n', 'a', 'n'] := by
      simp [Layout.text, hshape, numberLayout]
    rw [htext, hx]
    exact ⟨by simp [isWordChar], rfl⟩
  | infinity negative =>
    cases negative with
    | true =>
      have hx : x = -1.0 / 0.0 := ofFloat_injective (hshape.trans (by decide +kernel))
      have htext : (numberLayout.text x).toList = ['-', 'i', 'n', 'f'] := by
        simp [Layout.text, hshape, signText]
      rw [htext, hx]
      exact ⟨by simp [isWordChar], rfl⟩
    | false =>
      have hx : x = 1.0 / 0.0 := ofFloat_injective (hshape.trans (by decide +kernel))
      have htext : (numberLayout.text x).toList = ['i', 'n', 'f'] := by
        simp [Layout.text, hshape, signText]
      rw [htext, hx]
      exact ⟨by simp [isWordChar], rfl⟩
  | finite b =>
    have hfinite : x.isFinite = true := isFinite_iff.mpr ⟨b, hshape⟩
    obtain ⟨n, hx, hzero, htext⟩ := numberLayout.exists_numeral_text hfinite
    obtain ⟨whole, places, hplain, hwhole, hplaces, hdigits, hhead, habs⟩ :=
      numberLayout.plain_parts rfl hzero
    have hread :
        (⟨n.negative, value (whole ++ places), 0 - places.length⟩ : Numeral).toFloat = x := by
      rw [← hx]
      exact toFloat_congr rfl habs
    rw [htext, if_pos (show numberLayout.isPlain (Layout.order n) = true from rfl), hplain]
    exact spells_pointed n.negative hwhole hplaces hdigits hhead hread hfinite

end Tariff.Toml
