import KotlinHighlight.Sorted.UpperBound

/-! # Character classes as ranges of code points

The tables of the Unicode standard are lists of closed ranges in increasing order. A class keeps the
borders of its ranges in one increasing array: a character belongs to it exactly when an odd number
of borders is at most its code point.
-/

namespace KotlinHighlight.Unicode

/-- Closed ranges of code points, disjoint and in increasing order. -/
abbrev Ranges := List (Nat × Nat)

/-- The first code point of each range and the first one after it, in increasing order. -/
def Ranges.borders (ranges : Ranges) : Array Nat :=
  (ranges.flatMap fun range => [range.1, range.2 + 1]).toArray

/-- Whether a character lies between the two ends of a range, told from the borders. -/
def withinBorders (borders : Array Nat) (c : Char) : Bool :=
  Sorted.upperBound borders c.toNat % 2 == 1

def isAscii (c : Char) : Bool :=
  c.toNat < 128

end KotlinHighlight.Unicode
