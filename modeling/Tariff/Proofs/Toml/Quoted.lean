import Mathlib.Data.Nat.Notation
import Mathlib.Tactic.SplitIfs
import Tariff.Toml.Lexer
import Tariff.Toml.Writer

/-!
# Strings are read as they were written

A string stands in one of six forms. Each of them gives its characters back, whatever they are.

* `scanLine_escapeLine`, `scanRaw_append`: strings on one line, with escapes and without.
* `scanBlock_escapeBlock`, `scanRawBlock_append`: strings over many lines. Their marks may stand in
  them, too, up to two in a row.
* `scanQuoted_stringChars`, `scanQuoted_keyChars`: a string, and a key in quotes, is one token.
-/

namespace Tariff.Toml

open Text

variable {c : Char} {cs rest : List Char}

@[simp] theorem push_some {out : List Char} :
    Scanned.push c (some (out, rest)) = some (c :: out, rest) :=
  rfl

@[simp] theorem push?_some {s : Scanned} : Scanned.push? (some c) s = s.push c := rfl

/-! ## Escapes -/

theorem charOf?_code (h : c.toNat < 128) :
    charOf? ['0', '0', upperHexDigit (c.toNat / 16), upperHexDigit (c.toNat % 16)] = some c := by
  have table : ∀ k : Fin 128,
      numberIn? 16 ['0', '0', upperHexDigit (k / 16), upperHexDigit (k % 16)] = some k.val := by
    decide
  have hvalid : c.toNat.isValidChar := by
    unfold Nat.isValidChar
    omega
  rw [charOf?, table ⟨c.toNat, h⟩]
  simp [hvalid]

/-- What a character is escaped by, if at all. A quote is left to those who know what it ends. -/
theorem escapeChar_cases (c : Char) :
    (∃ e, escapeChar c = ['\\', e] ∧ escaped? e = some c ∧ e ∉ ['u', 'U', ' ', '\t', '\n', '\r']) ∨
    (c.toNat < 128 ∧ escapeChar c = codeEscape c) ∨
    (c ≠ '\\' ∧ c ≠ '\n' ∧ c ≠ '\r' ∧ isPrintable c = true ∧ escapeChar c = [c]) := by
  unfold escapeChar
  split_ifs with hslash hback htab hline hform hreturn hcontrol
  · exact .inl ⟨'\\', rfl, by simp [escaped?, hslash], by decide⟩
  · exact .inl ⟨'b', rfl, by simp [escaped?, hback], by decide⟩
  · exact .inl ⟨'t', rfl, by simp [escaped?, htab], by decide⟩
  · exact .inl ⟨'n', rfl, by simp [escaped?, hline], by decide⟩
  · exact .inl ⟨'f', rfl, by simp [escaped?, hform], by decide⟩
  · exact .inl ⟨'r', rfl, by simp [escaped?, hreturn], by decide⟩
  · refine .inr (.inl ⟨?_, rfl⟩)
    simp only [isControl, Bool.or_eq_true, Bool.and_eq_true, decide_eq_true_eq,
      beq_iff_eq] at hcontrol
    omega
  · refine .inr (.inr ⟨hslash, hline, hreturn, ?_, rfl⟩)
    simp [isControl, htab, hline] at hcontrol
    simp [isPrintable, hcontrol]

/-- No escape starts with a quote, nor does any other character. -/
theorem head_escapeChar (h : c ≠ '"') (rest : List Char) :
    ∀ d ∈ (escapeChar c ++ rest).head?, d ≠ '"' ∧ d ≠ '\n' ∧ d ≠ '\r' := by
  obtain ⟨e, hescape, -⟩ | ⟨-, hescape⟩ | ⟨-, hline, hreturn, -, hescape⟩ := escapeChar_cases c
  · simp [hescape]
  · simp [hescape, codeEscape]
  · simp [hescape, h, hline, hreturn]

/-! ## Strings on one line -/

theorem scanLine_escape {e : Char} (he : escaped? e = some c) (hu : e ≠ 'u') (hU : e ≠ 'U') :
    scanLine ('\\' :: e :: rest) = (scanLine rest).push c := by
  rw [scanLine.eq_4 _ _ (by simp [hu]) (by simp [hU]), he, push?_some]

theorem scanLine_escapeChar (h : c ≠ '"') :
    scanLine (escapeChar c ++ rest) = (scanLine rest).push c := by
  obtain ⟨e, hescape, he, hne⟩ | ⟨hcode, hescape⟩ | ⟨hslash, -, -, hprint, hescape⟩ :=
    escapeChar_cases c
  · rw [hescape]
    exact scanLine_escape he (by rintro rfl; simp at hne) (by rintro rfl; simp at hne)
  · simp [hescape, codeEscape, scanLine, charOf?_code hcode]
  · rw [hescape, List.singleton_append, scanLine.eq_5 _ _ h (by simp [hslash]) (by simp [hslash])
      (by simp [hslash]), if_pos ⟨hprint, hslash⟩]

/-- The characters between quotes are found again. -/
theorem scanLine_escapeLine (cs rest : List Char) :
    scanLine (escapeLine cs ++ '"' :: rest) = some (cs, rest) := by
  induction cs with
  | nil => simp [escapeLine, scanLine]
  | cons c cs ih =>
    unfold escapeLine at ih ⊢
    rw [List.flatMap_cons, List.append_assoc]
    by_cases h : c = '"'
    · rw [if_pos h, List.cons_append, List.cons_append, List.nil_append,
        scanLine_escape (c := '"') rfl (by decide) (by decide), ih, push_some, h]
    · rw [if_neg h, scanLine_escapeChar h, ih, push_some]

/-- Characters without apostrophes among them are found again as they stand. -/
theorem scanRaw_append (hprint : ∀ c ∈ cs, isPrintable c = true) (hmark : '\'' ∉ cs) :
    scanRaw (cs ++ '\'' :: rest) = some (cs, rest) := by
  induction cs with
  | nil => simp [scanRaw]
  | cons c cs ih =>
    obtain ⟨hc, hcs⟩ := List.forall_mem_cons.mp hprint
    rw [List.mem_cons, not_or] at hmark
    rw [List.cons_append, scanRaw.eq_2 _ _ (Ne.symm hmark.1), if_pos hc, ih hcs hmark.2, push_some]

/-! ## Runs -/

/-- Behind `run` marks, no three marks stand in a row. -/
def ShortRuns (mark : Char) : ℕ → List Char → Prop
  | _, [] => True
  | run, c :: cs => if c = mark then run < 2 ∧ ShortRuns mark (run + 1) cs else ShortRuns mark 0 cs

theorem le_foldl_countRun (mark : Char) (cs : List Char) (longest run : ℕ) :
    longest ≤ (cs.foldl (countRun mark) (longest, run)).1 := by
  induction cs generalizing longest run with
  | nil => exact Nat.le_refl longest
  | cons c cs ih =>
    rw [List.foldl_cons, countRun]
    by_cases hc : c = mark
    · have := ih (max longest (run + 1)) (run + 1)
      rw [if_pos hc]
      omega
    · rw [if_neg hc]
      exact ih longest 0

theorem shortRuns_of_foldl {mark : Char} {longest run : ℕ}
    (h : (cs.foldl (countRun mark) (longest, run)).1 ≤ 2) : ShortRuns mark run cs := by
  induction cs generalizing longest run with
  | nil => trivial
  | cons c cs ih =>
    rw [List.foldl_cons, countRun] at h
    unfold ShortRuns
    by_cases hc : c = mark
    · rw [if_pos hc] at h ⊢
      have := le_foldl_countRun mark cs (max longest (run + 1)) (run + 1)
      exact ⟨by omega, ih h⟩
    · rw [if_neg hc] at h ⊢
      exact ih h

theorem shortRuns_of_longestRun {mark : Char} (h : longestRun mark cs ≤ 2) : ShortRuns mark 0 cs :=
  shortRuns_of_foldl h

/-- Where a character has no run, it does not stand. -/
theorem notMem_of_foldl {mark : Char} {longest run : ℕ}
    (h : (cs.foldl (countRun mark) (longest, run)).1 = 0) : mark ∉ cs := by
  induction cs generalizing longest run with
  | nil => exact List.not_mem_nil
  | cons c cs ih =>
    rw [List.foldl_cons, countRun] at h
    by_cases hc : c = mark
    · rw [if_pos hc] at h
      have := le_foldl_countRun mark cs (max longest (run + 1)) (run + 1)
      omega
    · rw [if_neg hc] at h
      simp [Ne.symm hc, ih h]

/-- Whether a text starts with two marks, so that it ends a string if one more stands in front. -/
def StartsTwice (mark : Char) (cs : List Char) : Prop := ∃ tail, cs = mark :: mark :: tail

theorem not_startsTwice_of_head {mark : Char} (h : ∀ d ∈ cs.head?, d ≠ mark) :
    ¬ StartsTwice mark cs := by
  rintro ⟨tail, rfl⟩
  simp at h

theorem not_startsTwice_cons {mark : Char} (h : ∀ d ∈ cs.head?, d ≠ mark) :
    ¬ StartsTwice mark (c :: cs) := by
  rintro ⟨tail, heq⟩
  cases heq
  simp at h

/-! ## Strings over many lines -/

theorem scanBlock_cons (hquote : c = '"' → ¬ StartsTwice '"' rest) (hslash : c ≠ '\\')
    (hline : c ≠ '\n') (hreturn : c ≠ '\r') (hprint : isPrintable c = true) :
    scanBlock false (c :: rest) = (scanBlock false rest).push c := by
  have hne (hc : c = '"') (tail : List Char) : rest ≠ '"' :: '"' :: tail :=
    fun heq => hquote hc ⟨tail, heq⟩
  rw [scanBlock.eq_9 _ _ _ (fun _ hc => hne hc _) (fun _ hc => hne hc _) (fun _ hc => hne hc _)
    (by simp [hreturn]) hline (by simp [hslash]) (by simp [hslash]) (by simp [hslash])]
  simp [hprint, hslash]

theorem scanBlock_escape {e : Char} (he : escaped? e = some c)
    (hne : e ∉ ['u', 'U', ' ', '\t', '\n', '\r']) :
    scanBlock false ('\\' :: e :: rest) = (scanBlock false rest).push c := by
  simp only [List.mem_cons, List.not_mem_nil, or_false, not_or] at hne
  obtain ⟨hu, hU, hspace, htab, hline, hreturn⟩ := hne
  have hends : endsLine (e :: rest) = false := by
    simp [endsLine, isSpace, hspace, htab, hline, hreturn]
  rw [scanBlock.eq_8 _ _ _ (by simp [hu]) (by simp [hU]), hends, he, push?_some]
  rfl

theorem scanBlock_escapeChar (h : c ≠ '"') :
    scanBlock false (escapeChar c ++ rest) = (scanBlock false rest).push c := by
  obtain ⟨e, hescape, he, hne⟩ | ⟨hcode, hescape⟩ | ⟨hslash, hline, hreturn, hprint, hescape⟩ :=
    escapeChar_cases c
  · rw [hescape]
    exact scanBlock_escape he hne
  · simp [hescape, codeEscape, scanBlock, charOf?_code hcode]
  · rw [hescape]
    exact scanBlock_cons (fun hc => absurd hc h) hslash hline hreturn hprint

/-- What is no quote stands between three quotes in a way that does not start with one. -/
theorem head_escapeBlock {run : ℕ} (h : c = '"' → run = 2) (rest : List Char) :
    ∀ d ∈ (escapeBlock run (c :: cs) ++ rest).head?, d ≠ '"' := by
  rw [escapeBlock]
  by_cases hc : c = '"'
  · simp [hc, h hc]
  · rw [if_neg hc, List.append_assoc]
    by_cases hline : c = '\n'
    · simp [hline]
    · rw [if_neg hline]
      exact fun d hd => (head_escapeChar hc _ d hd).1

/-- Two more quotes follow on one only at the end of the string, where its own quotes come. -/
theorem not_startsTwice_escapeBlock {run : ℕ} (hne : cs ≠ []) (hone : run = 0 → cs ≠ ['"'])
    (hrun : run < 2) (rest : List Char) : ¬ StartsTwice '"' (escapeBlock (run + 1) cs ++ rest) := by
  cases cs with
  | nil => exact absurd rfl hne
  | cons c cs =>
    by_cases hc : c = '"' ∧ run = 0
    · obtain ⟨rfl, rfl⟩ := hc
      cases cs with
      | nil => exact absurd rfl (hone rfl)
      | cons d cs =>
        rw [escapeBlock, if_pos rfl, if_neg (by decide), List.cons_append]
        exact not_startsTwice_cons (head_escapeBlock (fun _ => rfl) rest)
    · have htwo (heq : c = '"') : run + 1 = 2 := by
        have : run ≠ 0 := fun hzero => hc ⟨heq, hzero⟩
        omega
      exact not_startsTwice_of_head (head_escapeBlock htwo rest)

/-- The characters between three quotes are found again, `run` quotes behind the last that is
none. -/
theorem scanBlock_escapeBlock {run : ℕ} (hrun : run ≤ 2) (hrest : ∀ c ∈ rest.head?, c ≠ '"') :
    scanBlock false (escapeBlock run cs ++ '"' :: '"' :: '"' :: rest) = some (cs, rest) := by
  induction cs generalizing run with
  | nil =>
    cases rest with
    | nil => rfl
    | cons d rest => simp [escapeBlock, scanBlock, hrest d rfl]
  | cons c cs ih =>
    by_cases hc : c = '"'
    · subst hc
      by_cases htwo : run = 2
      · rw [escapeBlock, if_pos rfl, if_pos htwo, List.cons_append, List.cons_append,
          scanBlock_escape (c := '"') rfl (by decide), ih (by omega), push_some]
      · rw [escapeBlock, if_pos rfl, if_neg htwo, List.cons_append]
        by_cases hnil : cs = []
        · -- The last quote comes right in front of the three that end the string,
          subst hnil
          cases rest with
          | nil => rfl
          | cons d rest => simp [escapeBlock, scanBlock, hrest d rfl]
        · by_cases hone : run = 0 ∧ cs = ['"']
          · -- as do the last two,
            obtain ⟨rfl, rfl⟩ := hone
            simp [escapeBlock, scanBlock]
          · -- and any other quote is followed by one more at most.
            have htwice := not_startsTwice_escapeBlock hnil (fun h0 h1 => hone ⟨h0, h1⟩)
              (by omega : run < 2) ('"' :: '"' :: '"' :: rest)
            rw [scanBlock_cons (fun _ => htwice) (by decide) (by decide) (by decide) (by decide),
              ih (by omega), push_some]
    · rw [escapeBlock, if_neg hc, List.append_assoc]
      by_cases hline : c = '\n'
      · simp [hline, scanBlock, ih]
      · rw [if_neg hline, scanBlock_escapeChar hc, ih (by omega), push_some]

theorem scanRawBlock_cons (hmark : c = '\'' → ¬ StartsTwice '\'' rest) (hreturn : c ≠ '\r')
    (hprint : isPrintable c = true ∨ c = '\n') :
    scanRawBlock (c :: rest) = (scanRawBlock rest).push c := by
  by_cases hline : c = '\n'
  · rw [hline, scanRawBlock]
  · have hne (hc : c = '\'') (tail : List Char) : rest ≠ '\'' :: '\'' :: tail :=
      fun heq => hmark hc ⟨tail, heq⟩
    rw [scanRawBlock.eq_6 _ _ (fun _ hc => hne hc _) (fun _ hc => hne hc _) (fun _ hc => hne hc _)
      (by simp [hreturn]) hline, if_pos (hprint.resolve_right hline)]

/-- Two more apostrophes follow on one only at the end of the string, where its own ones come. -/
theorem ShortRuns.not_startsTwice {mark : Char} {run : ℕ} (h : ShortRuns mark run (mark :: cs))
    (hne : cs ≠ []) (hone : cs ≠ [mark]) (rest : List Char) : ¬ StartsTwice mark (cs ++ rest) := by
  rintro ⟨tail, heq⟩
  cases cs with
  | nil => exact absurd rfl hne
  | cons c cs =>
    obtain ⟨rfl, heq⟩ := List.cons.inj heq
    cases cs with
    | nil => exact absurd rfl hone
    | cons d cs =>
      obtain ⟨rfl, -⟩ := List.cons.inj heq
      simp only [ShortRuns, if_true] at h
      omega

/-- Characters among which no three apostrophes stand in a row are found again as they stand. -/
theorem scanRawBlock_append {run : ℕ} (hrun : ShortRuns '\'' run cs)
    (hprint : ∀ c ∈ cs, isPrintable c = true ∨ c = '\n') (hreturn : '\r' ∉ cs)
    (hrest : ∀ c ∈ rest.head?, c ≠ '\'') :
    scanRawBlock (cs ++ '\'' :: '\'' :: '\'' :: rest) = some (cs, rest) := by
  induction cs generalizing run with
  | nil =>
    cases rest with
    | nil => rfl
    | cons d rest => simp [scanRawBlock, hrest d rfl]
  | cons c cs ih =>
    obtain ⟨hc, hcs⟩ := List.forall_mem_cons.mp hprint
    rw [List.mem_cons, not_or] at hreturn
    have ih (run : ℕ) (h : ShortRuns '\'' run cs) := ih h hcs hreturn.2
    by_cases hmark : c = '\''
    · subst hmark
      have hbehind : ShortRuns '\'' (run + 1) cs := by
        simp [ShortRuns] at hrun
        exact hrun.2
      by_cases hnil : cs = []
      · subst hnil
        cases rest with
        | nil => rfl
        | cons d rest => simp [scanRawBlock, hrest d rfl]
      · by_cases hone : cs = ['\'']
        · subst hone
          simp [scanRawBlock]
        · have htwice := hrun.not_startsTwice hnil hone ('\'' :: '\'' :: '\'' :: rest)
          rw [List.cons_append, scanRawBlock_cons (fun _ => htwice) (by decide) (.inl (by decide)),
            ih _ hbehind, push_some]
    · have hbehind : ShortRuns '\'' 0 cs := by simpa [ShortRuns, hmark] using hrun
      rw [List.cons_append, scanRawBlock_cons (fun heq => absurd heq hmark) (Ne.symm hreturn.1) hc,
        ih _ hbehind, push_some]

/-! ## Whole tokens -/

theorem dropBreak_of_head (h : ∀ c ∈ cs.head?, c ≠ '\n' ∧ c ≠ '\r') : dropBreak cs = cs := by
  unfold dropBreak
  split
  · simp at h
  · simp at h
  · rfl

/-- What may stand in a string or comment as it is. -/
theorem isPrintable_of_not_isControl (h : isControl c = false) :
    isPrintable c = true ∨ c = '\n' := by
  simp only [isControl, isPrintable] at h ⊢
  grind

/-- Neither quote goes on with this text. -/
def NoQuote (rest : List Char) : Prop := ∀ c ∈ rest.head?, c ≠ '"' ∧ c ≠ '\''

theorem scanQuoted_line (cs : List Char) (hrest : NoQuote rest) :
    scanQuoted ('"' :: (escapeLine cs ++ '"' :: rest)) = some (.string cs, rest) := by
  have htwice : ¬ StartsTwice '"' (escapeLine cs ++ '"' :: rest) := by
    cases cs with
    | nil => exact not_startsTwice_cons fun d hd => (hrest d hd).1
    | cons c cs =>
      refine not_startsTwice_of_head ?_
      rw [escapeLine, List.flatMap_cons, List.append_assoc]
      by_cases hc : c = '"'
      · simp [hc]
      · rw [if_neg hc]
        exact fun d hd => (head_escapeChar hc _ d hd).1
  rw [scanQuoted.eq_2 _ fun tail heq => htwice ⟨tail, heq⟩, scanLine_escapeLine]
  rfl

theorem scanQuoted_raw (hprint : ∀ c ∈ cs, isPrintable c = true) (hmark : '\'' ∉ cs)
    (hrest : NoQuote rest) :
    scanQuoted ('\'' :: (cs ++ '\'' :: rest)) = some (.string cs, rest) := by
  have htwice : ¬ StartsTwice '\'' (cs ++ '\'' :: rest) := by
    cases cs with
    | nil => exact not_startsTwice_cons fun d hd => (hrest d hd).2
    | cons c cs =>
      rw [List.mem_cons, not_or] at hmark
      exact not_startsTwice_of_head (by simpa using Ne.symm hmark.1)
  rw [scanQuoted.eq_4 _ fun tail heq => htwice ⟨tail, heq⟩, scanRaw_append hprint hmark]
  rfl

/-- The line break in front of a string with line breaks is dropped, and no other one. -/
theorem dropBreak_append {lines : List Char}
    (h : '\n' ∉ cs → ∀ c ∈ lines.head?, c ≠ '\n' ∧ c ≠ '\r') :
    dropBreak ((if cs.contains '\n' then ['\n'] else []) ++ lines) = lines := by
  by_cases hline : '\n' ∈ cs
  · simp [hline, dropBreak]
  · simp [hline, dropBreak_of_head (h hline)]

theorem scanQuoted_block (cs : List Char) (hrest : NoQuote rest) :
    scanQuoted (enclosed '"' cs (escapeBlock 0 cs) ++ rest) = some (.block cs, rest) := by
  have hhead : '\n' ∉ cs → ∀ c ∈ (escapeBlock 0 cs ++ '"' :: '"' :: '"' :: rest).head?,
      c ≠ '\n' ∧ c ≠ '\r' := by
    intro hline
    cases cs with
    | nil => simp [escapeBlock]
    | cons c cs =>
      rw [List.mem_cons, not_or] at hline
      rw [escapeBlock]
      by_cases hc : c = '"'
      · simp [hc]
      · rw [if_neg hc, if_neg (Ne.symm hline.1), List.append_assoc]
        exact fun d hd => (head_escapeChar hc _ d hd).2
  have hscan : scanBlock false (escapeBlock 0 cs ++ '"' :: '"' :: '"' :: rest) = some (cs, rest) :=
    scanBlock_escapeBlock (by omega) fun c hc => (hrest c hc).1
  simp only [enclosed, List.cons_append, List.nil_append, List.append_assoc]
  rw [scanQuoted, dropBreak_append hhead, hscan]
  rfl

theorem scanQuoted_rawBlock (hcontrol : ∀ c ∈ cs, isControl c = false)
    (hruns : longestRun '\'' cs ≤ 2) (hrest : NoQuote rest) :
    scanQuoted (enclosed '\'' cs cs ++ rest) = some (.block cs, rest) := by
  have hreturn : '\r' ∉ cs := by
    intro hmem
    exact absurd (hcontrol _ hmem) (by decide)
  have hhead : '\n' ∉ cs → ∀ c ∈ (cs ++ '\'' :: '\'' :: '\'' :: rest).head?,
      c ≠ '\n' ∧ c ≠ '\r' := by
    intro hline
    cases cs with
    | nil => simp
    | cons c cs =>
      rw [List.mem_cons, not_or] at hline hreturn
      simp [Ne.symm hline.1, Ne.symm hreturn.1]
  have hscan : scanRawBlock (cs ++ '\'' :: '\'' :: '\'' :: rest) = some (cs, rest) :=
    scanRawBlock_append (shortRuns_of_longestRun hruns)
      (fun c hc => isPrintable_of_not_isControl (hcontrol c hc)) hreturn fun c hc => (hrest c hc).2
  simp only [enclosed, List.cons_append, List.nil_append, List.append_assoc]
  rw [scanQuoted, dropBreak_append hhead, hscan]
  rfl

/-- A string is one token, in whichever form it stands. -/
theorem scanQuoted_stringChars (cs : List Char) (hrest : NoQuote rest) :
    scanQuoted (stringChars cs ++ rest) = some (.string cs, rest) ∨
      scanQuoted (stringChars cs ++ rest) = some (.block cs, rest) := by
  have hline : scanQuoted ('"' :: escapeLine cs ++ ['"'] ++ rest) = some (.string cs, rest) := by
    simpa using scanQuoted_line cs hrest
  unfold stringChars
  simp only
  split_ifs with hbasic hraw hquotes hapostrophes hbroken
  · exact .inl hline
  · left
    simp only [Bool.and_eq_true, Bool.not_eq_true', List.any_eq_false, beq_iff_eq] at hraw
    obtain ⟨⟨hcontrol, hmark⟩, hbroken⟩ := hraw
    have hprint : ∀ c ∈ cs, isPrintable c = true := by
      intro c hc
      refine (isPrintable_of_not_isControl (by simpa using hcontrol c hc)).resolve_right ?_
      rintro rfl
      simp [hc] at hbroken
    simpa using scanQuoted_raw hprint (notMem_of_foldl hmark) hrest
  · exact .inr (scanQuoted_block cs hrest)
  · right
    simp only [Bool.and_eq_true, Bool.not_eq_true', List.any_eq_false, decide_eq_true_eq]
      at hapostrophes
    exact scanQuoted_rawBlock (by simpa using hapostrophes.1) hapostrophes.2 hrest
  · exact .inr (scanQuoted_block cs hrest)
  · exact .inl hline

/-- A key that needs quotes is one token. -/
theorem scanQuoted_keyChars (hbare : isBareKey cs = false) (hrest : NoQuote rest) :
    scanQuoted (keyChars cs ++ rest) = some (.string cs, rest) := by
  have hline : scanQuoted ('"' :: escapeLine cs ++ ['"'] ++ rest) = some (.string cs, rest) := by
    simpa using scanQuoted_line cs hrest
  unfold keyChars
  simp only [hbare, Bool.false_eq_true, if_false]
  split_ifs with hbasic hraw
  · exact hline
  · simp only [Bool.and_eq_true, Bool.not_eq_true', List.any_eq_false, Bool.or_eq_true, beq_iff_eq,
      not_or] at hraw
    obtain ⟨hcontrol, hmark⟩ := hraw
    have hprint : ∀ c ∈ cs, isPrintable c = true := by
      intro c hc
      obtain ⟨hcontrol, hline⟩ := hcontrol c hc
      exact (isPrintable_of_not_isControl (by simpa using hcontrol)).resolve_right hline
    simpa using scanQuoted_raw hprint (by simpa using hmark) hrest
  · exact hline

end Tariff.Toml
