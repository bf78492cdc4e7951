import Tariff.Text.Digits
import Tariff.Url.Letters
import Tariff.Url.Octets
import Tariff.Url.Punycode

/-!
# Hosts

The host of a URL is a domain name or an address.

* `ipv4?`: an address of up to four numbers, each decimal, octal or of base sixteen; the last one
  fills all octets that are left.
* `ipv6?`: an address of eight pieces, where a pair of colons stands for zeros, and an address of
  four octets for the last two pieces.
* `domain`: a domain name, in one form of its letters.
* `Host.parse`: any of them. A name whose last label is a number must be an address.
* `Host.parseOpaque`: the hosts of schemes whose hosts have no form of their own.
* `Host.isLoopback`: the host is this machine under its usual names.
* `UrlFault`: why a URL, or the host of one, is refused.
-/

namespace Tariff.Url

open Text

-- Powers are those of the core library.
attribute [local instance (2000)] instPowNat

/-- The host of a URL. -/
inductive Host where
  | domain (name : String)
  /-- An address of 32 bits. -/
  | ipv4 (address : Nat)
  /-- An address of eight pieces of 16 bits. -/
  | ipv6 (pieces : List Nat)
  deriving DecidableEq, Repr

/-- Why a URL is refused. -/
inductive UrlFault where
  /-- There is no scheme, so it could only be read next to another URL. -/
  | relative
  | emptyHost
  | domainName
  | ipv4
  | ipv6
  /-- A character cannot stand in a host. -/
  | character
  /-- The number of a service is no number, or too large. -/
  | serviceNumber
  deriving DecidableEq, Repr

def UrlFault.message : UrlFault → String
  | relative => "relative URL without a base"
  | emptyHost => "empty host"
  | domainName => "invalid international domain name"
  | ipv4 => "invalid IPv4 address"
  | ipv6 => "invalid IPv6 address"
  | character => "invalid domain character"
  | serviceNumber => "invalid port number"

/-- A value that must be there. -/
def orFault {α : Type} (fault : UrlFault) : Option α → Except UrlFault α
  | some a => .ok a
  | none => .error fault

/-! ## Addresses of four octets -/

/-- One number of an address: of base sixteen behind `0x`, of base eight behind another zero. -/
def part? : List Char → Option Nat
  | [] => none
  | '0' :: 'x' :: rest => numberIn? 16 rest
  | '0' :: 'X' :: rest => numberIn? 16 rest
  | '0' :: c :: rest => numberIn? 8 (c :: rest)
  | cs => numberIn? 10 cs

/-- The labels of a name, without the empty one behind a dot at its end. -/
def labels (cs : List Char) : List (List Char) :=
  match cs.splitOn '.' with
  | [only] => [only]
  | all => if all.getLast? = some [] then all.dropLast else all

/-- Whether the last label of a name is a number, well formed or not. -/
def endsInNumber (cs : List Char) : Bool :=
  match (labels cs).getLast? with
  | none => false
  | some last => (!last.isEmpty && last.all isDigit) || (part? last).isSome

/-- The address of its numbers; all but the last are octets. -/
def assemble? (numbers : List Nat) : Option Nat :=
  let octets := numbers.dropLast
  (numbers.getLast?).bind fun last =>
    if numbers.length ≤ 4 ∧ octets.all (· < 256) ∧ last < 256 ^ (4 - octets.length) then
      some (octets.foldl (fun n octet => 256 * n + octet) 0 * 256 ^ (4 - octets.length) + last)
    else none

/-- An address of four octets. -/
def ipv4? (cs : List Char) : Option Nat :=
  ((labels cs).mapM part?).bind assemble?

/-! ## Addresses of eight pieces -/

/-- A piece: up to four digits of base sixteen. -/
def piece? (cs : List Char) : Option Nat :=
  if cs = [] ∨ 4 < cs.length then none else numberIn? 16 cs

/-- A decimal octet without zeros in front. -/
def decimalOctet? (cs : List Char) : Option Nat :=
  if cs = [] ∨ 3 < cs.length ∨ (cs.head? = some '0' ∧ cs.length ≠ 1) then none
  else (numberIn? 10 cs).bind fun n => if n < 256 then some n else none

/-- The last piece, or four octets that make up two. -/
def lastPieces? (cs : List Char) : Option (List Nat) :=
  if cs.contains '.' then
    ((cs.splitOn '.').mapM decimalOctet?).bind fun
      | [a, b, c, d] => some [256 * a + b, 256 * c + d]
      | _ => none
  else (piece? cs).map fun n => [n]

/-- The pieces between colons; `last` reads what follows the last colon. -/
def piecesWith? (last : List Char → Option (List Nat)) (cs : List Char) : Option (List Nat) :=
  if cs = [] then some []
  else
    let parts := cs.splitOn ':'
    (parts.dropLast.mapM piece?).bind fun front =>
      (last (parts.getLast?.getD [])).map (front ++ ·)

/-- What stands before and behind the first pair of colons. -/
def splitAtPair : List Char → Option (List Char × List Char)
  | ':' :: ':' :: rest => some ([], rest)
  | c :: rest => (splitAtPair rest).map fun (front, back) => (c :: front, back)
  | [] => none

/-- An address of eight pieces; a pair of colons stands for at least one zero. -/
def ipv6? (cs : List Char) : Option (List Nat) :=
  match splitAtPair cs with
  | none => (piecesWith? lastPieces? cs).bind fun all => if all.length = 8 then some all else none
  | some (front, back) =>
    (piecesWith? (fun cs => (piece? cs).map fun n => [n]) front).bind fun front =>
      (piecesWith? lastPieces? back).bind fun back =>
        if front.length + back.length ≤ 7 then
          some (front ++ List.replicate (8 - front.length - back.length) 0 ++ back)
        else none

/-! ## Names -/

/-- Whether a label is as it should be; one in Punycode must have a character beyond ASCII and be in
the one form of its letters. -/
def isLabel (label : List Char) : Bool :=
  !(label.head?.any isMark) && !label.any isForbidden &&
    match label with
    | 'x' :: 'n' :: '-' :: '-' :: rest =>
      match Punycode.decode? rest with
      | some cs => cs.flatMap letterForm == cs && !cs.any isForbidden && !(cs.head?.any isMark)
      | none => false
    | _ => true

/-- A domain name in the one form of its letters. -/
def domain (cs : List Char) : Except UrlFault (List Char) :=
  (orFault .domainName (unescaped? cs)).bind fun cs =>
    let name := cs.flatMap letterForm
    if name = [] then .error .emptyHost
    else if (name.splitOn '.').all isLabel then .ok name
    else .error .domainName

/-- An address of eight pieces between brackets. -/
def bracketed (cs : List Char) : Except UrlFault (List Nat) :=
  orFault .ipv6 (if cs.getLast? = some ']' then ipv6? (cs.drop 1).dropLast else none)

/-- A domain name or an address. -/
def Host.parse (cs : List Char) : Except UrlFault Host :=
  if cs.head? = some '[' then (bracketed cs).map ipv6
  else
    (Url.domain cs).bind fun name =>
      if endsInNumber name then (orFault .ipv4 (ipv4? name)).map ipv4
      else .ok (domain (String.ofList name))

/-- The characters that no host holds, of whatever scheme. -/
def neverInHost : List Char :=
  ['\x00', '\t', '\n', '\r', ' ', '#', '/', ':', '<', '>', '?', '@', '[', '\\', ']', '^', '|']

/-- The host of a scheme whose hosts have no form of their own. -/
def Host.parseOpaque (cs : List Char) : Except UrlFault Host :=
  if cs.head? = some '[' then (bracketed cs).map ipv6
  else if cs.any neverInHost.contains then .error .character
  else .ok (domain (String.ofList cs))

/-- Whether a host is this machine, by its name or by the one address of either kind that is given
to it. -/
def Host.isLoopback : Host → Bool
  | domain name => name == "localhost"
  | ipv4 address => address == 127 * 256 ^ (3 : Nat) + 1
  | ipv6 pieces => pieces == [0, 0, 0, 0, 0, 0, 0, 1]

end Tariff.Url
