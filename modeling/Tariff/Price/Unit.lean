/-!
# Display units

Prices are kept per million tokens and shown per thousand or per million.
-/

namespace Tariff

/-- The count of tokens that a shown price is for. -/
inductive TokenUnit where
  /-- A thousand tokens. -/
  | thousand
  /-- A million tokens. -/
  | million
  deriving DecidableEq, Repr

namespace TokenUnit

/-- The tokens in one unit. -/
def tokens : TokenUnit → UInt64
  | thousand => 1000
  | million => 1000000

/-- A price per million tokens divided by this is one per unit. -/
def priceDivisor : TokenUnit → Float
  | thousand => 1000.0
  | million => 1.0

/-- The letter of a unit. -/
def letter : TokenUnit → String
  | thousand => "K"
  | million => "M"

/-- The letter after a one, as it stands behind a price. -/
def label : TokenUnit → String
  | thousand => "1K"
  | million => "1M"

/-- Reads a unit's letter in either case. -/
def ofLetter? : String → Option TokenUnit
  | "K" | "k" => some thousand
  | "M" | "m" => some million
  | _ => none

/-- The message for a text that is no unit. -/
def unknownMessage (text : String) : String :=
  "invalid token unit '" ++ text ++ "' (must be K or M)"

end TokenUnit

end Tariff
