import Tariff.Text.Digits

/-!
# Percent escapes

In a host an octet may be written as a percent sign and two digits of base sixteen.

* `octets`: the octets of a text with its escapes undone.
* `unescaped?`: the characters that they encode, if they encode any.
-/

namespace Tariff.Url

/-- The octet of two digits. -/
def octet? (high low : Char) : Option UInt8 :=
  (Text.numberIn? 16 [high, low]).map UInt8.ofNat

/-- The octets of a text, with each escape as the octet it stands for. -/
def octets : List Char → List UInt8
  | '%' :: high :: low :: rest =>
    match octet? high low with
    | some octet => octet :: octets rest
    | none => '%'.toUInt8 :: octets (high :: low :: rest)
  | c :: rest => c.toString.toUTF8.toList ++ octets rest
  | [] => []

/-- The characters of a text with its escapes undone, if they make up characters. -/
def unescaped? (cs : List Char) : Option (List Char) :=
  (String.fromUTF8? ⟨(octets cs).toArray⟩).map String.toList

end Tariff.Url
