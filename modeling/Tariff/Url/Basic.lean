import Tariff.Url.Host

/-!
# URLs

A URL that stands on its own names a scheme, and mostly a host. Blanks and control characters around
it do not count, and tabs and line breaks do not count anywhere.

* `Url.parse`: the scheme and host of a URL. What schemes there are differ in is how their
  authority, the part with the host, is marked and which hosts it admits.
-/

namespace Tariff

open Text

namespace Url

/-- What schemes differ in. -/
inductive SchemeKind where
  /-- The schemes of the web: any number of slashes, of either kind, leads to a host. -/
  | web
  /-- Files: two slashes lead to a host, which may be empty. -/
  | file
  /-- All others: two slashes lead to a host of any form. -/
  | other
  deriving DecidableEq, Repr

/-- The kind of a scheme in lower case. -/
def SchemeKind.of (scheme : String) : SchemeKind :=
  if ["http", "https", "ws", "wss", "ftp"].contains scheme then .web
  else if scheme = "file" then .file
  else .other

/-- A text without what does not count in a URL. -/
def cleaned (cs : List Char) : List Char :=
  let control (c : Char) : Bool := c.toNat ≤ 32
  let inner := ((cs.dropWhile control).reverse.dropWhile control).reverse
  inner.filter fun c => c != '\t' && c != '\n' && c != '\r'

/-- Whether a character can stand in a scheme. -/
def isSchemeChar (c : Char) : Bool :=
  c.isAlphanum || c == '+' || c == '-' || c == '.'

/-- The scheme in lower case, and what follows its colon. -/
def takeScheme? (cs : List Char) : Option (String × List Char) :=
  match cs.dropWhile isSchemeChar with
  | ':' :: rest =>
    if cs.head?.any Char.isAlpha then
      some (String.ofList ((cs.takeWhile isSchemeChar).map Char.toLower), rest)
    else none
  | _ => none

/-- Whether a character ends the authority. -/
def endsAuthority (kind : SchemeKind) (c : Char) : Bool :=
  c == '/' || c == '?' || c == '#' || (kind != .other && c == '\\')

/-- The host of an authority, and the number of a service behind a colon; colons in brackets belong
to the host. -/
def splitNumber : Bool → List Char → List Char × Option (List Char)
  | _, [] => ([], none)
  | bracketed, c :: cs =>
    if c = ':' ∧ !bracketed then ([], some cs)
    else
      let bracketed := if c = '[' then true else if c = ']' then false else bracketed
      let (host, number) := splitNumber bracketed cs
      (c :: host, number)

/-- Whether a text is the number of a service; nothing is one too, and what follows a backslash is
none of it. -/
def isServiceNumber (cs : List Char) : Bool :=
  let digits := cs.takeWhile (· ≠ '\\')
  digits.all isDigit && value digits < 65536

/-- What stands in front of the last at sign, if there is one, and the host behind it. -/
def splitUser (authority : List Char) : Option (List Char) × List Char :=
  let host := (authority.reverse.takeWhile (· ≠ '@')).reverse
  if host.length = authority.length then (none, authority)
  else (some (authority.take (authority.length - host.length - 1)), host)

/-- Whether a host may be left out: not behind the name of a user, nor before a number; an at sign
alone must stand at the end. -/
def admitsNoHost (user : Option (List Char)) (number : Option (List Char)) (atEnd : Bool) : Bool :=
  number.isNone &&
    match user with
    | none => true
    | some [] => atEnd
    | some name => name == [':']

/-- The host of an authority, if it has one. -/
def authorityHost (kind : SchemeKind) (user : Option (List Char)) (host : List Char)
    (number : Option (List Char)) (atEnd : Bool) : Except UrlFault (Option Host) :=
  if host = [] then
    if kind ≠ .web ∧ admitsNoHost user number atEnd then .ok none else .error .emptyHost
  else
    match kind with
    | .other => (Host.parseOpaque host).map some
    | _ => (Host.parse host).map some

/-- The host of the authority that a text starts with, if it has one. -/
def authority (kind : SchemeKind) (cs : List Char) : Except UrlFault (Option Host) :=
  let whole := cs.takeWhile (!endsAuthority kind ·)
  let (user, rest) := splitUser whole
  let (host, number) := splitNumber false rest
  (authorityHost kind user host number (whole.length == cs.length)).bind fun host =>
    if number.all isServiceNumber then .ok host else .error .serviceNumber

/-- Whether a text is the letter of a drive, which stands where a host would. -/
def isDrive : List Char → Bool
  | [letter, sign] => letter.isAlpha && (sign == ':' || sign == '|')
  | _ => false

/-- The host of a file, if it has one. -/
def fileHost (cs : List Char) : Except UrlFault (Option Host) :=
  let host := cs.takeWhile (!endsAuthority .file ·)
  if host = [] ∨ isDrive host then .ok none else (Host.parse host).map some

/-- Whether a character is a slash of either kind. -/
def isSlash (c : Char) : Bool :=
  c == '/' || c == '\\'

/-- The host of what follows a scheme, if it has one. -/
def hostOf (kind : SchemeKind) (cs : List Char) : Except UrlFault (Option Host) :=
  match kind with
  | .web => authority .web (cs.dropWhile isSlash)
  | .file =>
    match cs with
    | a :: b :: rest => if isSlash a && isSlash b then fileHost rest else .ok none
    | _ => .ok none
  | .other =>
    match cs with
    | '/' :: '/' :: rest => authority .other rest
    | _ => .ok none

end Url

/-- A URL, as far as it says where to send. -/
structure Url where
  /-- The scheme in lower case. -/
  scheme : String
  host : Option Url.Host
  deriving DecidableEq, Repr

/-- Reads a URL that stands on its own. -/
def Url.parse (s : String) : Except UrlFault Url :=
  (orFault .relative (takeScheme? (cleaned s.toList))).bind fun (scheme, rest) =>
    (hostOf (.of scheme) rest).map fun host => ⟨scheme, host⟩

end Tariff
