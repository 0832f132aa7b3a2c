import KotlinHighlight.Category

/-! # Spans

A stretch of text with its category and its color.
-/

namespace KotlinHighlight

/-- What stands from `start` up to, but without, `stop` is of a category and takes a color. -/
structure Span where
  start : Int
  stop : Int
  category : Category
  color : String
deriving DecidableEq, Repr

def Span.length (span : Span) : Int :=
  span.stop - span.start

end KotlinHighlight
