import KotlinHighlight.Sorted.UpperBound
import KotlinHighlight.Span
import KotlinHighlight.Text.Lines

/-! # Spans by line

The spans of one text, put into a bucket for each line they touch, so that the spans of a block are
found without going through all of them. Lines are separated by line feeds, and a line feed belongs
to no bucket: for each line it is noted which category covers the line feed that ends it.
-/

namespace KotlinHighlight

/-- The part of a span from `start` up to, but without, `stop`. -/
structure Piece where
  span : Span
  start : Int
  stop : Int
deriving DecidableEq, Repr

/-- The part of a piece between two positions, counted from the first of them, unless it is empty. -/
def Piece.relative? (piece : Piece) (start stop : Int) : Option Piece :=
  let part : Piece :=
    ⟨piece.span, max piece.start start - start, min piece.stop stop - start⟩
  if part.start < part.stop then some part else none

/-- The pieces of one line in order, and the category of the first span that covers its end. -/
structure LineBucket where
  pieces : Array Piece := #[]
  ending : Option Category := none
deriving DecidableEq, Repr

/-- The spans of one text by line. -/
structure LineIndex where
  length : Nat
  starts : Array Nat
  buckets : Array LineBucket
deriving DecidableEq, Repr

namespace LineIndex

def blank (text : Text) : LineIndex :=
  let starts := (Text.lineStarts text).toArray
  { length := text.length, starts, buckets := starts.map fun _ => {} }

/-- The number of line starts up to a position, less one: the line of a position that is not
negative. -/
def lineBefore (index : LineIndex) (position : Int) : Int :=
  (Sorted.upperBound index.starts position : Int) - 1

def startOf (index : LineIndex) (line : Nat) : Nat :=
  index.starts.getD line 0

/-- Whether a line is followed by another, and so ends with a line feed. -/
def hasLineFeed (index : LineIndex) (line : Nat) : Bool :=
  line + 1 < index.starts.size

/-- The position where the characters of a line end, its line feed left out. -/
def stopOf (index : LineIndex) (line : Nat) : Nat :=
  if index.hasLineFeed line then index.startOf (line + 1) - 1 else index.length

/-- The part of a span in an interval, unless it is empty. -/
def clip? (span : Span) (start stop : Int) : Option Piece :=
  let piece : Piece := ⟨span, max span.start start, min span.stop stop⟩
  if piece.start < piece.stop then some piece else none

/-- Whether a span covers the line feed at the end of a line. -/
def coversLineFeed (index : LineIndex) (span : Span) (line : Nat) : Bool :=
  index.hasLineFeed line && span.start ≤ index.stopOf line && index.stopOf line < span.stop

/-- The bucket of a line with one more span. -/
def fill (index : LineIndex) (span : Span) (line : Nat) (bucket : LineBucket) : LineBucket where
  pieces :=
    match clip? span (index.startOf line) (index.stopOf line) with
    | some piece => bucket.pieces.push piece
    | none => bucket.pieces
  ending :=
    if bucket.ending.isNone && index.coversLineFeed span line then some span.category
    else bucket.ending

def insertAt (span : Span) (index : LineIndex) (line : Nat) : LineIndex :=
  { index with buckets := index.buckets.modify line (index.fill span line) }

/-- The lines from the start of a span to its last position. -/
def linesOf (index : LineIndex) (span : Span) : List Nat :=
  let first := (index.lineBefore span.start).toNat
  let count := (index.lineBefore (max (span.stop - 1) span.start) + 1).toNat
  List.range' first (count - first)

/-- Puts a span into the buckets of the lines it touches. -/
def insert (index : LineIndex) (span : Span) : LineIndex :=
  (index.linesOf span).foldl (insertAt span) index

/-- The index of some spans of a text. -/
def ofSpans (text : Text) (spans : List Span) : LineIndex :=
  spans.foldl insert (blank text)

/-- The line of a position: the last one that starts at or before it, and the first line for a
negative position. -/
def lineAt (index : LineIndex) (position : Int) : Nat :=
  (index.lineBefore position).toNat

/-- The pieces of the spans between two positions, line by line, counted from the first position. -/
def spansBetween (index : LineIndex) (start stop : Int) : List Piece :=
  let first := index.lineAt start
  (List.range' first (index.lineAt stop + 1 - first)).flatMap fun line =>
    (index.buckets.getD line {}).pieces.toList.filterMap (·.relative? start stop)

/-- The category of the first span that covers the line feed at the end of a line. -/
def endCategory (index : LineIndex) (line : Int) : Option Category :=
  if line < 0 then none
  else (index.buckets.getD line.toNat {}).ending

end LineIndex

end KotlinHighlight
