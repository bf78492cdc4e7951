import Tariff.Proofs.Toml.Quoted
import Tariff.Proofs.Toml.Word
import Tariff.Toml.Reader

/-!
# Reading what is written, token by token

What is written is read in the order in which it stands. The reader takes one token and goes on with
the text behind it.

* `Reader.run`: the run over the tokens of a text. `Reader.run_token`: one step of it.
* `Reader.run_newline`, …: signs.
* `tokens_of_scanQuoted`, `tokens_word`: a string, and a word in front of what ends it, is one token.
-/

namespace Tariff.Toml

open Text

variable {r : Reader} {c : Char} {cs rest : List Char} {t : Token}

/-- The run over the tokens of a text. -/
def Reader.run (r : Reader) (cs : List Char) : Option Reader :=
  (tokens cs).foldlM Reader.stepToken r

/-! ## A token after another -/

theorem tokens_cons (hspace : isSpace c = false) (hhash : c ≠ '#')
    (h : scanToken (c :: cs) = some (t, rest)) : tokens (c :: cs) = t :: tokens rest := by
  rw [tokens, hspace, if_neg (by decide), if_neg hhash]
  split
  · simp_all
  · rename_i heq
    rw [heq] at h
    cases h
    rfl

namespace Reader

@[simp] theorem run_nil (r : Reader) : r.run [] = some r := by
  simp [run, tokens]

@[simp] theorem run_space (r : Reader) (rest : List Char) : r.run (' ' :: rest) = r.run rest := by
  unfold run
  rw [tokens, if_pos (by decide)]

theorem run_token (h : tokens cs = t :: tokens rest) :
    r.run cs = (r.stepToken t).bind (·.run rest) := by
  unfold run
  rw [h, List.foldlM_cons]
  rfl

theorem run_newline (r : Reader) (rest : List Char) :
    r.run ('\n' :: rest) = (r.stepToken .newline).bind (·.run rest) :=
  run_token (tokens_cons (by decide) (by decide) rfl)

theorem run_equals (r : Reader) (rest : List Char) :
    r.run ('=' :: rest) = (r.stepToken .equals).bind (·.run rest) :=
  run_token (tokens_cons (by decide) (by decide) rfl)

theorem run_comma (r : Reader) (rest : List Char) :
    r.run (',' :: rest) = (r.stepToken .comma).bind (·.run rest) :=
  run_token (tokens_cons (by decide) (by decide) rfl)

theorem run_openBrackets (r : Reader) (rest : List Char) :
    r.run ('[' :: '[' :: rest) = (r.stepToken .openBrackets).bind (·.run rest) :=
  run_token (tokens_cons (by decide) (by decide) rfl)

theorem run_closeBrackets (r : Reader) (rest : List Char) :
    r.run (']' :: ']' :: rest) = (r.stepToken .closeBrackets).bind (·.run rest) :=
  run_token (tokens_cons (by decide) (by decide) rfl)

theorem run_openBracket (r : Reader) (h : rest.head? ≠ some '[') :
    r.run ('[' :: rest) = (r.stepToken .openBracket).bind (·.run rest) := by
  refine run_token (tokens_cons (by decide) (by decide) ?_)
  rw [scanToken, scanSign.eq_6 _ (by rintro tail rfl; simp at h)]
  rfl

theorem run_closeBracket (r : Reader) (h : rest.head? ≠ some ']') :
    r.run (']' :: rest) = (r.stepToken .closeBracket).bind (·.run rest) := by
  refine run_token (tokens_cons (by decide) (by decide) ?_)
  rw [scanToken, scanSign.eq_8 _ (by rintro tail rfl; simp at h)]
  rfl

end Reader

/-! ## Strings and words -/

theorem scanSign_eq_none (h : c ∉ ['\n', '\r', '=', ',', '[', ']', '\x7b', '\x7d']) :
    scanSign (c :: cs) = none := by
  unfold scanSign
  split <;> simp_all

theorem scanQuoted_eq_none (hquote : c ≠ '"') (hmark : c ≠ '\'') :
    scanQuoted (c :: cs) = none := by
  unfold scanQuoted
  split <;> simp_all

theorem head_of_scanQuoted (h : scanQuoted cs = some (t, rest)) :
    ∃ c tail, cs = c :: tail ∧ (c = '"' ∨ c = '\'') := by
  unfold scanQuoted at h
  split at h <;> simp_all

/-- A quote starts a token. -/
theorem tokens_of_scanQuoted (h : scanQuoted cs = some (t, rest)) :
    tokens cs = t :: tokens rest := by
  obtain ⟨c, tail, rfl, hc⟩ := head_of_scanQuoted h
  have hsign : scanSign (c :: tail) = none :=
    scanSign_eq_none (by rcases hc with rfl | rfl <;> decide)
  refine tokens_cons (by rcases hc with rfl | rfl <;> decide)
    (by rcases hc with rfl | rfl <;> decide) ?_
  rw [scanToken, hsign, h]
  rfl

/-- Neither a word nor a string goes on with this text. -/
def Stops (rest : List Char) : Prop :=
  ∃ c tail, rest = c :: tail ∧ (c ∈ ['\n', ',', ']'] ∨ c = ' ' ∧ tail.head? = some '=')

theorem Stops.noQuote (h : Stops rest) : NoQuote rest := by
  obtain ⟨c, tail, rfl, hc⟩ := h
  intro d hd
  cases hd
  rcases hc with hc | ⟨rfl, -⟩
  · simp only [List.mem_cons, List.not_mem_nil, or_false] at hc
    rcases hc with rfl | rfl | rfl <;> decide
  · decide

/-- A blank behind a date is no part of it. -/
theorem isMoment_append_space (h : isDate cs = true) : isMoment (cs ++ [' ']) = false := by
  unfold isDate at h
  split at h
  · rename_i y₁ y₂ y₃ y₄ m₁ m₂ d₁ d₂
    have hyear : isDigit y₃ = true := by simp at h; exact h.1.1.2.2.1
    have hcolon : y₃ ≠ ':' := isDigit_ne hyear (by decide)
    have htime : takeTime? [y₁, y₂, y₃, y₄, '-', m₁, m₂, '-', d₁, d₂, ' '] = none := by
      unfold takeTime?
      split
      · simp_all
      · rfl
    have hempty : takeTime? [] = none := rfl
    simp [isMoment, htime, hempty, isDate]
  · simp at h

theorem isWordChar_stops (h : Stops rest) : ∀ c ∈ rest.head?, isWordChar c = false := by
  obtain ⟨c, tail, rfl, hc⟩ := h
  intro d hd
  cases hd
  simp only [List.mem_cons, List.not_mem_nil, or_false] at hc
  rcases hc with (rfl | rfl | rfl) | ⟨rfl, -⟩ <;> simp [isWordChar]

theorem scanTime_stops (h : Stops rest) (cs : List Char) : scanTime cs rest = (cs, rest) := by
  obtain ⟨c, tail, rfl, hc⟩ := h
  by_cases hspace : c = ' '
  · subst hspace
    simp at hc
    obtain ⟨d, tail, rfl⟩ := List.exists_cons_of_ne_nil (by rintro rfl; simp at hc : tail ≠ [])
    simp at hc
    subst hc
    have hdate : (isDate cs && isMoment (cs ++ [' '])) = false := by
      by_cases hdate : isDate cs = true
      · rw [isMoment_append_space hdate, Bool.and_false]
      · simp [hdate]
    simp [scanTime, isWordChar, hdate]
  · rw [scanTime.eq_2 _ _ (by simp [hspace])]

theorem isWordChar_ne {d : Char} (h : isWordChar c = true) (hd : isWordChar d = false) : c ≠ d := by
  rintro rfl
  simp [h] at hd

/-- A word is one token. -/
theorem tokens_word (hne : cs ≠ []) (hcs : ∀ c ∈ cs, isWordChar c = true) (hrest : Stops rest) :
    tokens (cs ++ rest) = .word cs :: tokens rest := by
  have hstop := isWordChar_stops hrest
  have htake : (cs ++ rest).takeWhile isWordChar = cs := by
    rw [List.takeWhile_append_of_pos hcs]
    cases rest with
    | nil => simp
    | cons d tail => simp [hstop d rfl]
  have hdrop : (cs ++ rest).dropWhile isWordChar = rest := by
    rw [List.dropWhile_append_of_pos hcs]
    cases rest with
    | nil => simp
    | cons d tail => simp [hstop d rfl]
  have hword : scanWord (cs ++ rest) = some (.word cs, rest) := by
    unfold scanWord
    rw [htake, hdrop]
    split
    · exact absurd rfl hne
    · simp [scanTime_stops hrest]
  obtain ⟨c, tail, rfl⟩ := List.exists_cons_of_ne_nil hne
  have hc := hcs c List.mem_cons_self
  have hsign : scanSign (c :: (tail ++ rest)) = none := by
    refine scanSign_eq_none ?_
    intro hmem
    simp only [List.mem_cons, List.not_mem_nil, or_false] at hmem
    rcases hmem with rfl | rfl | rfl | rfl | rfl | rfl | rfl | rfl <;> simp [isWordChar] at hc
  have hquoted : scanQuoted (c :: (tail ++ rest)) = none :=
    scanQuoted_eq_none (isWordChar_ne hc (by simp [isWordChar]))
      (isWordChar_ne hc (by simp [isWordChar]))
  have hspace : isSpace c = false := by
    simp [isSpace, isWordChar_ne hc (by simp [isWordChar] : isWordChar ' ' = false),
      isWordChar_ne hc (by simp [isWordChar] : isWordChar '\t' = false)]
  rw [List.cons_append] at hword ⊢
  refine tokens_cons hspace (isWordChar_ne hc (by simp [isWordChar])) ?_
  simp [scanToken, hsign, hquoted, hword]

end Tariff.Toml
