import Tariff.Text.Digits
import Tariff.Toml.Word

/-!
# Tokens of TOML

* `tokens`: the tokens of a text; blanks and comments separate them and are left out. A place that
  starts no token is marked, and ends the text.
* `scanLine`, `scanRaw`: strings on one line, with escapes and without.
* `scanBlock`, `scanRawBlock`: the same over many lines. A line break is read as one character
  however it is written, and a backslash at the end of a line joins the next text to it.
-/

namespace Tariff.Toml

open Text

/-- A token. -/
inductive Token where
  | newline
  | equals
  | comma
  | openBracket
  | closeBracket
  /-- Two brackets without a blank between them. -/
  | openBrackets
  | closeBrackets
  | openBrace
  | closeBrace
  /-- A name, a number, or more names with points between them. -/
  | word (cs : List Char)
  /-- A string on one line. -/
  | string (cs : List Char)
  /-- A string over many lines, which cannot be a key. -/
  | block (cs : List Char)
  /-- The place where no token starts. -/
  | junk
  deriving DecidableEq, Repr

/-- The blanks within a line. -/
def isSpace (c : Char) : Bool :=
  c == ' ' || c == '\t'

/-- Whether a character may stand in a comment or a string. -/
def isPrintable (c : Char) : Bool :=
  c == '\t' || (32 ≤ c.toNat && c.toNat != 127)

/-! ## Strings -/

/-- The character of an escape with one letter. -/
def escaped? : Char → Option Char
  | '"' => some '"'
  | '\\' => some '\\'
  | 'b' => some '\x08'
  | 'f' => some '\x0c'
  | 'n' => some '\n'
  | 'r' => some '\r'
  | 't' => some '\t'
  | _ => none

/-- The character of a code in digits of base sixteen. -/
def charOf? (digits : List Char) : Option Char :=
  (numberIn? 16 digits).bind fun n => if n.isValidChar then some (Char.ofNat n) else none

/-- The characters of a string, with what follows its end. -/
abbrev Scanned := Option (List Char × List Char)

/-- Puts a character in front of what was scanned. -/
def Scanned.push (c : Char) (s : Scanned) : Scanned :=
  s.map fun (cs, rest) => (c :: cs, rest)

/-- Puts a character in front of what was scanned, if there is one. -/
def Scanned.push? (c : Option Char) (s : Scanned) : Scanned :=
  c.bind fun c => s.push c

/-- Scans a string on one line up to its closing quote. -/
def scanLine : List Char → Scanned
  | '"' :: rest => some ([], rest)
  | '\\' :: 'u' :: a :: b :: c :: d :: rest => (scanLine rest).push? (charOf? [a, b, c, d])
  | '\\' :: 'U' :: a :: b :: c :: d :: e :: f :: g :: h :: rest =>
    (scanLine rest).push? (charOf? [a, b, c, d, e, f, g, h])
  | '\\' :: e :: rest => (scanLine rest).push? (escaped? e)
  | c :: rest => if isPrintable c ∧ c ≠ '\\' then (scanLine rest).push c else none
  | [] => none

/-- Scans a string without escapes up to its closing apostrophe. -/
def scanRaw : List Char → Scanned
  | '\'' :: rest => some ([], rest)
  | c :: rest => if isPrintable c then (scanRaw rest).push c else none
  | [] => none

/-- Whether a text goes on with blanks up to the end of its line. -/
def endsLine (cs : List Char) : Bool :=
  match cs.dropWhile isSpace with
  | '\n' :: _ => true
  | '\r' :: '\n' :: _ => true
  | _ => false

/-- Scans a string over many lines up to its three closing quotes; up to two more quotes in front of
them belong to the string. `joining` drops blanks and line breaks, behind a backslash that ends a
line. -/
def scanBlock : Bool → List Char → Scanned
  | _, '"' :: '"' :: '"' :: '"' :: '"' :: rest => some (['"', '"'], rest)
  | _, '"' :: '"' :: '"' :: '"' :: rest => some (['"'], rest)
  | _, '"' :: '"' :: '"' :: rest => some ([], rest)
  | joining, '\r' :: '\n' :: rest =>
    if joining then scanBlock true rest else (scanBlock false rest).push '\n'
  | joining, '\n' :: rest =>
    if joining then scanBlock true rest else (scanBlock false rest).push '\n'
  | _, '\\' :: 'u' :: a :: b :: c :: d :: rest =>
    (scanBlock false rest).push? (charOf? [a, b, c, d])
  | _, '\\' :: 'U' :: a :: b :: c :: d :: e :: f :: g :: h :: rest =>
    (scanBlock false rest).push? (charOf? [a, b, c, d, e, f, g, h])
  | _, '\\' :: e :: rest =>
    if endsLine (e :: rest) then scanBlock true (e :: rest)
    else (scanBlock false rest).push? (escaped? e)
  | joining, c :: rest =>
    if joining && isSpace c then scanBlock true rest
    else if isPrintable c ∧ c ≠ '\\' then (scanBlock false rest).push c
    else none
  | _, [] => none

/-- Scans a string over many lines without escapes up to its three closing apostrophes; up to two
more in front of them belong to the string. -/
def scanRawBlock : List Char → Scanned
  | '\'' :: '\'' :: '\'' :: '\'' :: '\'' :: rest => some (['\'', '\''], rest)
  | '\'' :: '\'' :: '\'' :: '\'' :: rest => some (['\''], rest)
  | '\'' :: '\'' :: '\'' :: rest => some ([], rest)
  | '\r' :: '\n' :: rest => (scanRawBlock rest).push '\n'
  | '\n' :: rest => (scanRawBlock rest).push '\n'
  | c :: rest => if isPrintable c then (scanRawBlock rest).push c else none
  | [] => none

/-- Drops one line break, which does not count at the start of a string over many lines. -/
def dropBreak : List Char → List Char
  | '\n' :: rest => rest
  | '\r' :: '\n' :: rest => rest
  | cs => cs

/-! ## Tokens -/

/-- Whether a character may stand in a word. -/
def isWordChar (c : Char) : Bool :=
  c.isAlphanum || c == '_' || c == '-' || c == '+' || c == '.' || c == ':'

/-- Takes a time behind one blank off the front, if a date stands in front of it. -/
def scanTime (date : List Char) : List Char → List Char × List Char
  | ' ' :: rest =>
    let both := date ++ ' ' :: rest.takeWhile isWordChar
    if isDate date && isMoment both then (both, rest.dropWhile isWordChar) else (date, ' ' :: rest)
  | rest => (date, rest)

/-- Takes a word off the front. A date takes a time behind one blank with it. -/
def scanWord (cs : List Char) : Option (Token × List Char) :=
  match cs.takeWhile isWordChar with
  | [] => none
  | word =>
    let (word, rest) := scanTime word (cs.dropWhile isWordChar)
    some (.word word, rest)

/-- Takes a comment off the front, up to the end of its line; no result if it has a character that
may not stand there. -/
def scanComment : List Char → Option (List Char)
  | [] => some []
  | '\n' :: rest => some ('\n' :: rest)
  | '\r' :: '\n' :: rest => some ('\r' :: '\n' :: rest)
  | c :: rest => if isPrintable c then scanComment rest else none

/-- A token with what follows it. -/
def withToken (token : List Char → Token) (s : Scanned) : Option (Token × List Char) :=
  s.map fun (cs, rest) => (token cs, rest)

/-- Takes a sign or a line break off the front. -/
def scanSign : List Char → Option (Token × List Char)
  | '\n' :: rest => some (.newline, rest)
  | '\r' :: '\n' :: rest => some (.newline, rest)
  | '=' :: rest => some (.equals, rest)
  | ',' :: rest => some (.comma, rest)
  | '[' :: '[' :: rest => some (.openBrackets, rest)
  | '[' :: rest => some (.openBracket, rest)
  | ']' :: ']' :: rest => some (.closeBrackets, rest)
  | ']' :: rest => some (.closeBracket, rest)
  | '{' :: rest => some (.openBrace, rest)
  | '}' :: rest => some (.closeBrace, rest)
  | _ => none

/-- Takes a string off the front. -/
def scanQuoted : List Char → Option (Token × List Char)
  | '"' :: '"' :: '"' :: rest => withToken .block (scanBlock false (dropBreak rest))
  | '"' :: rest => withToken .string (scanLine rest)
  | '\'' :: '\'' :: '\'' :: rest => withToken .block (scanRawBlock (dropBreak rest))
  | '\'' :: rest => withToken .string (scanRaw rest)
  | _ => none

/-- Takes a token off the front of a text that starts with no blank or comment. -/
def scanToken (cs : List Char) : Option (Token × List Char) :=
  (scanSign cs).or ((scanQuoted cs).or (scanWord cs))

theorem push_eq_some {c : Char} {s : Scanned} {cs rest : List Char} :
    s.push c = some (cs, rest) ↔ ∃ tail, s = some (tail, rest) ∧ cs = c :: tail := by
  simp only [Scanned.push, Option.map_eq_some_iff, Prod.mk.injEq, Prod.exists]
  grind

theorem push?_eq_some {c : Option Char} {s : Scanned} {cs rest : List Char} :
    s.push? c = some (cs, rest) ↔
      ∃ d tail, c = some d ∧ s = some (tail, rest) ∧ cs = d :: tail := by
  simp only [Scanned.push?, Option.bind_eq_some_iff, push_eq_some]
  grind

theorem length_scanLine {cs out rest : List Char} (h : scanLine cs = some (out, rest)) :
    rest.length < cs.length := by
  fun_induction scanLine cs generalizing out with
  | case3 a b c d e f g i tail ih =>
    obtain ⟨_, _, -, h, -⟩ := push?_eq_some.mp h
    have := ih h
    simp only [List.length_cons]
    omega
  | _ => grind [push_eq_some, push?_eq_some]

theorem length_scanRaw {cs out rest : List Char} (h : scanRaw cs = some (out, rest)) :
    rest.length < cs.length := by
  fun_induction scanRaw cs generalizing out <;> grind [push_eq_some]

theorem length_scanBlock {joining : Bool} {cs out rest : List Char}
    (h : scanBlock joining cs = some (out, rest)) : rest.length < cs.length := by
  fun_induction scanBlock joining cs generalizing out with
  | case9 _ a b c d e f g i tail ih =>
    obtain ⟨_, _, -, h, -⟩ := push?_eq_some.mp h
    have := ih h
    simp only [List.length_cons]
    omega
  | _ => grind [push_eq_some, push?_eq_some]

theorem length_scanRawBlock {cs out rest : List Char} (h : scanRawBlock cs = some (out, rest)) :
    rest.length < cs.length := by
  fun_induction scanRawBlock cs generalizing out <;> grind [push_eq_some]

theorem length_dropBreak (cs : List Char) : (dropBreak cs).length ≤ cs.length := by
  unfold dropBreak
  split <;> grind

theorem length_dropWhile_le (p : Char → Bool) (cs : List Char) :
    (cs.dropWhile p).length ≤ cs.length :=
  (List.dropWhile_sublist p).length_le

theorem length_scanTime (date cs : List Char) : (scanTime date cs).2.length ≤ cs.length := by
  unfold scanTime
  split
  · rename_i rest
    have := length_dropWhile_le isWordChar rest
    simp only
    split <;> grind
  · exact Nat.le_refl _

theorem length_scanWord {cs rest : List Char} {t : Token} (h : scanWord cs = some (t, rest)) :
    rest.length < cs.length := by
  unfold scanWord at h
  split at h
  · simp at h
  · rename_i hne
    simp only [Option.some.injEq, Prod.mk.injEq] at h
    have hlen := congrArg List.length (List.takeWhile_append_dropWhile (p := isWordChar) (l := cs))
    have := length_scanTime (cs.takeWhile isWordChar) (cs.dropWhile isWordChar)
    have := List.length_pos_iff.mpr hne
    rw [List.length_append] at hlen
    rw [← h.2]
    omega

theorem length_scanComment {cs rest : List Char} (h : scanComment cs = some rest) :
    rest.length ≤ cs.length := by
  fun_induction scanComment cs <;> grind

theorem length_scanSign {cs rest : List Char} {t : Token} (h : scanSign cs = some (t, rest)) :
    rest.length < cs.length := by
  fun_cases scanSign cs <;> grind [scanSign]

theorem exists_of_withToken {token : List Char → Token} {s : Scanned} {t : Token}
    {rest : List Char} (h : withToken token s = some (t, rest)) : ∃ out, s = some (out, rest) := by
  obtain ⟨⟨out, r⟩, h, he⟩ := Option.map_eq_some_iff.mp h
  simp only [Prod.mk.injEq] at he
  exact ⟨out, he.2 ▸ h⟩

theorem length_scanQuoted {cs rest : List Char} {t : Token} (h : scanQuoted cs = some (t, rest)) :
    rest.length < cs.length := by
  unfold scanQuoted at h
  split at h
  · rename_i tail
    obtain ⟨_, hs⟩ := exists_of_withToken h
    have := length_scanBlock hs
    have := length_dropBreak tail
    grind
  · obtain ⟨_, hs⟩ := exists_of_withToken h
    exact Nat.lt_succ_of_lt (length_scanLine hs)
  · rename_i tail
    obtain ⟨_, hs⟩ := exists_of_withToken h
    have := length_scanRawBlock hs
    have := length_dropBreak tail
    grind
  · obtain ⟨_, hs⟩ := exists_of_withToken h
    exact Nat.lt_succ_of_lt (length_scanRaw hs)
  · simp at h

theorem length_scanToken {cs rest : List Char} {t : Token} (h : scanToken cs = some (t, rest)) :
    rest.length < cs.length := by
  simp only [scanToken, Option.or_eq_some_iff] at h
  rcases h with h | ⟨-, h | ⟨-, h⟩⟩
  · exact length_scanSign h
  · exact length_scanQuoted h
  · exact length_scanWord h

/-- The tokens of a text, up to the first place that starts none. -/
def tokens (cs : List Char) : List Token :=
  match cs with
  | [] => []
  | c :: rest =>
    if isSpace c then tokens rest
    else if c = '#' then
      match _h : scanComment rest with
      | none => [.junk]
      | some rest' => tokens rest'
    else
      match _h : scanToken (c :: rest) with
      | none => [.junk]
      | some (t, rest') => t :: tokens rest'
  termination_by cs.length
  decreasing_by
    · simp
    · have := length_scanComment ‹_›
      simp only [List.length_cons]
      omega
    · have := length_scanToken ‹_›
      simpa using this

end Tariff.Toml
