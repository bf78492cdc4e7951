/-!
# Token bounds

The window of request sizes that a rule is for: from a smallest to a largest count of tokens, on the
input and on the output side. A bound of zero is no bound.

* `TokenRange.admits`, `TokenBounds.admits`: whether a count, or a request, lies in the window.
* `TokenRange.inverted`: the smallest count exceeds the largest, so nothing lies in the window.
-/

namespace Tariff

/-- The token counts of a request. -/
structure TokenCounts where
  input : UInt64
  output : UInt64
  deriving DecidableEq, Repr

/-- Whether no token was used. -/
def TokenCounts.isEmpty (tokens : TokenCounts) : Bool :=
  tokens.input == 0 && tokens.output == 0

/-- From a smallest to a largest count; zero is no bound. -/
structure TokenRange where
  min : UInt64
  max : UInt64
  deriving DecidableEq, Repr

namespace TokenRange

/-- No bound on either end. -/
def unlimited : TokenRange := ⟨0, 0⟩

/-- Whether a count lies in the range. -/
def admits (range : TokenRange) (count : UInt64) : Bool :=
  (range.min == 0 || range.min ≤ count) && (range.max == 0 || count ≤ range.max)

/-- Whether the smallest count exceeds the largest. -/
def inverted (range : TokenRange) : Bool :=
  0 < range.max && range.max < range.min

end TokenRange

/-- The window of request sizes that a rule is for. -/
structure TokenBounds where
  input : TokenRange
  output : TokenRange
  deriving DecidableEq, Repr

namespace TokenBounds

/-- The window without bounds. -/
def unlimited : TokenBounds := ⟨.unlimited, .unlimited⟩

/-- Whether a request lies in the window. -/
def admits (bounds : TokenBounds) (tokens : TokenCounts) : Bool :=
  bounds.input.admits tokens.input && bounds.output.admits tokens.output

/-- Whether there is no bound at all. -/
def isUnlimited (bounds : TokenBounds) : Bool :=
  bounds == unlimited

end TokenBounds

end Tariff
