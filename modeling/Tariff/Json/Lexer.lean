import Tariff.Document.Basic
import Tariff.Number.Scientific
import Tariff.Text.Digits

/-!
# Tokens of JSON

* `tokens`: the tokens of a text up to the first place that starts none, which is marked.
* `scanNumber`: whole numbers of 64 bits stay whole; all others are floats, and one that is beyond
  every float is well formed but unusable, as is a minus zero for a whole number.
* `scanString`: a string with its escapes. Halves of characters that do not pair up make it
  unusable.

Each step returns the rest of the text, and `tokens` ends because rests get shorter.

A float is the one nearest to the number that is written. This is an assumption about readers of the
format: one that gives up the last bit for speed may take a float that was printed for its neighbor,
and whatever is proved about texts that are read back is about readers that do not.
-/

namespace Tariff.Json

open Text Number

-- Powers are those of the core library.
attribute [local instance (2000)] instPowNat

/-- A token. -/
inductive Token where
  | openArray
  | closeArray
  | openObject
  | closeObject
  | comma
  | colon
  /-- A string, if its escapes name characters. -/
  | string (value : Option String)
  /-- Another value that is one token. -/
  | scalar (value : Document)
  /-- The place where no token starts. -/
  | junk

/-- The blanks of the format. -/
def isSpace (c : Char) : Bool :=
  c == ' ' || c == '\t' || c == '\n' || c == '\r'

/-! ## Numbers -/

/-- The parts of a number. -/
structure Literal where
  negative : Bool
  /-- The digits in front of the point. -/
  whole : List Char
  /-- The digits behind a point. -/
  places : Option (List Char)
  /-- The power of ten behind an `e`. -/
  exponent : Option Int
  deriving DecidableEq, Repr

/-- The numeral that the parts make up. -/
def Literal.numeral (l : Literal) : Numeral :=
  let places := l.places.getD []
  ⟨l.negative, value (l.whole ++ places), l.exponent.getD 0 - places.length⟩

/-- A float as a document, unless it is beyond every float. -/
def finiteReal (x : Float) : Document :=
  if x.isFinite then .real x else .unusable

/-- What a number stands for. -/
def Literal.document (l : Literal) : Document :=
  if l.places.isNone && l.exponent.isNone then
    let n := value l.whole
    if l.negative then
      if 0 < n && n ≤ 2 ^ (63 : Nat) then .integer (-n) else finiteReal l.numeral.toFloat
    else if n < 2 ^ (64 : Nat) then .integer n
    else finiteReal l.numeral.toFloat
  else finiteReal l.numeral.toFloat

/-- Takes the digits off the front. -/
def scanDigits (cs : List Char) : Option (List Char × List Char) :=
  match cs.takeWhile isDigit with
  | [] => none
  | ds => some (ds, cs.dropWhile isDigit)

/-- Takes the digits behind a point off the front, if there is a point. -/
def scanPlaces : List Char → Option (Option (List Char) × List Char)
  | '.' :: rest => (scanDigits rest).map fun (ds, rest) => (some ds, rest)
  | rest => some (none, rest)

/-- Takes the power of ten off the front, if there is one. -/
def scanExponent : List Char → Option (Option Int × List Char)
  | c :: rest =>
    if c = 'e' ∨ c = 'E' then
      let (negative, rest) := match rest with
        | '-' :: rest => (true, rest)
        | '+' :: rest => (false, rest)
        | rest => (false, rest)
      (scanDigits rest).map fun (ds, rest) =>
        (some (if negative then -(value ds : Int) else value ds), rest)
    else some (none, c :: rest)
  | [] => some (none, [])

/-- Takes a number without its sign off the front; zeros in front of other digits are refused. -/
def scanUnsigned (negative : Bool) (cs : List Char) : Option (Literal × List Char) := do
  let (whole, rest) ← scanDigits cs
  if whole.head? = some '0' ∧ whole.length ≠ 1 then none
  else
    let (places, rest) ← scanPlaces rest
    let (exponent, rest) ← scanExponent rest
    some (⟨negative, whole, places, exponent⟩, rest)

/-- Takes a number off the front. -/
def scanNumber : List Char → Option (Literal × List Char)
  | '-' :: rest => scanUnsigned true rest
  | cs => scanUnsigned false cs

/-! ## Strings -/

/-- A piece of a string: a character, or half of one that stands outside the first plane. -/
inductive Piece where
  | char (c : Char)
  | half (unit : Nat)
  deriving DecidableEq, Repr

/-- The character of an escape with one letter. -/
def escaped? : Char → Option Char
  | '"' => some '"'
  | '\\' => some '\\'
  | '/' => some '/'
  | 'b' => some '\x08'
  | 'f' => some '\x0c'
  | 'n' => some '\n'
  | 'r' => some '\r'
  | 't' => some '\t'
  | _ => none

/-- The piece of a number of sixteen bits. -/
def Piece.ofUnit (unit : Nat) : Piece :=
  if 0xd800 ≤ unit ∧ unit < 0xe000 then .half unit else .char (Char.ofNat unit)

/-- Takes the pieces of a string and its closing quote off the front. -/
def scanPieces : List Char → Option (List Piece × List Char)
  | '"' :: rest => some ([], rest)
  | '\\' :: 'u' :: a :: b :: c :: d :: rest => do
    let unit ← numberIn? 16 [a, b, c, d]
    let (pieces, rest) ← scanPieces rest
    some (.ofUnit unit :: pieces, rest)
  | '\\' :: e :: rest => do
    let c ← escaped? e
    let (pieces, rest) ← scanPieces rest
    some (.char c :: pieces, rest)
  | c :: rest =>
    if c.toNat < 32 ∨ c = '\\' then none
    else (scanPieces rest).map fun (pieces, rest) => (.char c :: pieces, rest)
  | [] => none

/-- The characters of a string, where all halves pair up. -/
def pairUp : List Piece → Option (List Char)
  | [] => some []
  | .char c :: rest => (pairUp rest).map (c :: ·)
  | .half high :: .half low :: rest =>
    if high < 0xdc00 ∧ 0xdc00 ≤ low then
      (pairUp rest).map (Char.ofNat (0x10000 + (high - 0xd800) * 1024 + (low - 0xdc00)) :: ·)
    else none
  | .half _ :: _ => none

/-- The text of a string, where all halves pair up. -/
def stringOf (pieces : List Piece) : Option String :=
  (pairUp pieces).map String.ofList

/-! ## Tokens -/

/-- Takes a word off the front. -/
def scanWord (word : String) (cs : List Char) : Option (List Char) :=
  if word.toList.isPrefixOf cs then some (cs.drop word.length) else none

/-- Takes a token off the front of a text that starts with no blank. -/
def scanToken : List Char → Option (Token × List Char)
  | [] => none
  | '[' :: rest => some (.openArray, rest)
  | ']' :: rest => some (.closeArray, rest)
  | '{' :: rest => some (.openObject, rest)
  | '}' :: rest => some (.closeObject, rest)
  | ',' :: rest => some (.comma, rest)
  | ':' :: rest => some (.colon, rest)
  | '"' :: rest => (scanPieces rest).map fun (pieces, rest) => (.string (stringOf pieces), rest)
  | 'n' :: rest => (scanWord "ull" rest).map fun rest => (.scalar .null, rest)
  | 't' :: rest => (scanWord "rue" rest).map fun rest => (.scalar (.flag true), rest)
  | 'f' :: rest => (scanWord "alse" rest).map fun rest => (.scalar (.flag false), rest)
  | cs => (scanNumber cs).map fun (l, rest) => (.scalar l.document, rest)

theorem length_scanDigits {cs ds rest : List Char} (h : scanDigits cs = some (ds, rest)) :
    rest.length < cs.length := by
  unfold scanDigits at h
  cases cs with
  | nil => simp at h
  | cons c cs =>
    by_cases hc : isDigit c = true
    · simp only [List.takeWhile_cons, hc, if_true, List.dropWhile_cons, Option.some.injEq,
        Prod.mk.injEq] at h
      have := (List.dropWhile_sublist isDigit (l := cs)).length_le
      rw [← h.2]
      simp only [List.length_cons]
      omega
    · simp [hc] at h

theorem length_scanPlaces {cs rest : List Char} {p : Option (List Char)}
    (h : scanPlaces cs = some (p, rest)) : rest.length ≤ cs.length := by
  unfold scanPlaces at h
  split at h
  · rename_i tail
    obtain ⟨⟨ds, r⟩, hd, he⟩ := Option.map_eq_some_iff.mp h
    have := length_scanDigits hd
    simp only [Prod.mk.injEq] at he
    rw [← he.2]
    simp only [List.length_cons]
    omega
  · simp_all

theorem length_scanExponent {cs rest : List Char} {e : Option Int}
    (h : scanExponent cs = some (e, rest)) : rest.length ≤ cs.length := by
  unfold scanExponent at h
  split at h
  · rename_i c tail
    split at h
    · obtain ⟨⟨ds, r⟩, hd, he⟩ := Option.map_eq_some_iff.mp h
      simp only [Prod.mk.injEq] at he
      have := length_scanDigits hd
      rw [← he.2]
      split at this <;> simp_all <;> omega
    · simp_all
  · simp_all

theorem length_scanUnsigned {negative : Bool} {cs rest : List Char} {l : Literal}
    (h : scanUnsigned negative cs = some (l, rest)) : rest.length < cs.length := by
  simp only [scanUnsigned, Option.bind_eq_bind, Option.bind_eq_some_iff] at h
  obtain ⟨⟨whole, r₁⟩, h₁, h⟩ := h
  split at h
  · simp at h
  · obtain ⟨⟨places, r₂⟩, h₂, ⟨exponent, r₃⟩, h₃, h⟩ := by
      simpa only [Option.bind_eq_some_iff] using h
    simp only [Option.some.injEq, Prod.mk.injEq] at h h₃
    have := length_scanDigits h₁
    have := length_scanPlaces h₂
    have := length_scanExponent h₃
    rw [← h.2]
    omega

theorem length_scanNumber {cs rest : List Char} {l : Literal}
    (h : scanNumber cs = some (l, rest)) : rest.length < cs.length := by
  unfold scanNumber at h
  split at h
  · have := length_scanUnsigned h
    simp only [List.length_cons]
    omega
  · exact length_scanUnsigned h

theorem length_scanPieces {cs rest : List Char} {pieces : List Piece}
    (h : scanPieces cs = some (pieces, rest)) : rest.length < cs.length := by
  fun_induction scanPieces cs generalizing pieces rest with
  | case1 r => simp_all
  | case2 a b c d r ih =>
    simp only [Option.bind_eq_bind, Option.bind_eq_some_iff] at h
    obtain ⟨_, -, ⟨p, r'⟩, hr, h⟩ := h
    have := ih hr
    simp_all
    omega
  | case3 e r _ ih =>
    simp only [Option.bind_eq_bind, Option.bind_eq_some_iff] at h
    obtain ⟨_, -, ⟨p, r'⟩, hr, h⟩ := h
    have := ih hr
    simp_all
    omega
  | case4 => simp at h
  | case5 c r _ _ _ _ ih =>
    obtain ⟨⟨p, r'⟩, hr, h⟩ := Option.map_eq_some_iff.mp h
    have := ih hr
    simp_all
    omega
  | case6 => simp at h

theorem length_scanWord {word : String} {cs rest : List Char} (h : scanWord word cs = some rest) :
    rest.length ≤ cs.length := by
  unfold scanWord at h
  split at h
  · simp only [Option.some.injEq] at h
    rw [← h]
    simp
  · simp at h

theorem length_scanToken {cs rest : List Char} {t : Token} (h : scanToken cs = some (t, rest)) :
    rest.length < cs.length := by
  unfold scanToken at h
  split at h <;> try simp_all
  · obtain ⟨p, hp, -⟩ := h
    have := length_scanPieces hp
    omega
  · have := length_scanWord h.1
    omega
  · have := length_scanWord h.1
    omega
  · have := length_scanWord h.1
    omega
  · obtain ⟨l, hl, -⟩ := h
    exact length_scanNumber hl

/-- The tokens of a text, up to the first place that starts none. -/
def tokens (cs : List Char) : List Token :=
  match cs with
  | [] => []
  | c :: rest =>
    if isSpace c then tokens rest
    else
      match _h : scanToken (c :: rest) with
      | none => [.junk]
      | some (t, rest') => t :: tokens rest'
  termination_by cs.length
  decreasing_by
    · simp
    · have := length_scanToken ‹_›
      simpa using this

end Tariff.Json
