import KotlinHighlight.Decimal.Notation
import KotlinHighlight.Text.Lines

/-! # Error locations

A compiler reports where an error is as a line and a column, each with a colon after it, with the
name of the script before them or without. The first location in a line of output counts.
-/

namespace KotlinHighlight

/-- Where an error is, counted from one, and the line of output that says so. -/
structure ErrorLocation where
  line : Nat
  column : Nat
  message : Text
deriving DecidableEq, Repr

namespace ErrorLocation

/-- Digits with a colon after them at the start of a text, and the rest. -/
def coordinate? (text : Text) : Option (Text × Text) :=
  match text.takeWhile Char.isDigit, text.dropWhile Char.isDigit with
  | c :: digits, ':' :: rest => some (c :: digits, rest)
  | _, _ => none

/-- The digits of a line and of a column at the start of a text. -/
def coordinates? (text : Text) : Option (Text × Text) := do
  let (line, rest) ← coordinate? text
  let (column, _) ← coordinate? rest
  return (line, column)

/-- The names that a script is reported by. -/
def labels : List Text :=
  ["script:".toList, "script.kts:".toList]

/-- The text after the name of the script at its start, if that is there. -/
def dropLabel (text : Text) : Text :=
  match labels.find? (·.isPrefixOf text) with
  | some label => text.drop label.length
  | none => text

/-- The digits of the first location in a text. -/
def firstCoordinates? : Text → Option (Text × Text)
  | [] => none
  | c :: rest => (coordinates? (dropLabel (c :: rest))).or (firstCoordinates? rest)

/-- The first location in a line of output. A location with too many digits is none, and no later
one is looked for. -/
def parse? (text : Text) : Option ErrorLocation :=
  match firstCoordinates? text with
  | some (line, column) =>
    if line.length ≤ Decimal.digitLimit ∧ column.length ≤ Decimal.digitLimit then
      some ⟨Decimal.ofDigits line, Decimal.ofDigits column, text⟩
    else none
  | none => none

/-- The locations in some output, each with the number of its line from zero. -/
def findAll (output : Text) : List (Nat × ErrorLocation) :=
  (Text.lines output).zipIdx.filterMap fun (line, number) => (parse? line).map (number, ·)

end ErrorLocation

/-- The offset of a line and a column, both counted from one: none for a line that does not exist,
and a place in the line for every column. -/
def Text.offset? (text : Text) (line column : Int) : Option Nat :=
  if line ≤ 0 then none
  else
    let before := (line - 1).toNat
    (Text.lines text)[before]?.map fun content =>
      Text.sizeBefore List.length before (Text.lines text) + min (column - 1).toNat content.length

end KotlinHighlight
