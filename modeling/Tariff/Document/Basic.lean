/-!
# Documents

What a text in a data format holds, before it is known what it should hold. A document also says
where its text goes wrong, so that a reader meets the faults of a text in the order in which they
stand in it: those of values that it reads, and those of the format.

* `Document.unusable`: a well-formed value that stands for nothing. It may be skipped, not read.
* `Document.broken`: here the text leaves the format; nothing after it is known.
* `Document.isIntact`: nothing in a document is broken, so that it may be skipped.
-/

namespace Tariff

/-- What a text in a data format holds. -/
inductive Document where
  /-- Nothing, said outright. -/
  | null
  /-- Yes or no. -/
  | flag (value : Bool)
  /-- A whole number. -/
  | integer (value : Int)
  /-- Another number. -/
  | real (value : Float)
  /-- A text. -/
  | text (value : String)
  /-- Documents in order. -/
  | list (items : List Document)
  /-- Documents under keys, in order; a key can be as unusable as a document. -/
  | record (fields : List (Option String × Document))
  /-- A well-formed value that stands for nothing. -/
  | unusable
  /-- The place where the text leaves the format. -/
  | broken

namespace Document

mutual

/-- Whether nothing in a document is broken. -/
def isIntact : Document → Bool
  | list items => allIntact items
  | record fields => fieldsIntact fields
  | broken => false
  | _ => true

/-- Whether nothing in any of the documents is broken. -/
def allIntact : List Document → Bool
  | [] => true
  | d :: ds => d.isIntact && allIntact ds

/-- Whether nothing in any of the fields is broken. -/
def fieldsIntact : List (Option String × Document) → Bool
  | [] => true
  | (_, d) :: ds => d.isIntact && fieldsIntact ds

end

end Document

end Tariff
