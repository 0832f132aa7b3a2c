import Mathlib.Order.Bounds.Defs
import KotlinHighlight.Proofs.LineIndex

/-! # A line index answers as an exhaustive search does

What an index finds by halving, in buckets that were filled once, is what going through all lines and
all spans finds: the pieces between two positions, the category at a line feed and the line of a
position (`ofSpans_eq_exhaustive`). The spans may be empty, reversed or outside of the text, and the
positions may be any integers.
-/

namespace KotlinHighlight

namespace LineIndex

open Text (lineStretches)

/-- The part of a span on a line and between two positions, counted from the first of the two, unless
it is empty. -/
def common? (span : Span) (line : Stretch) (start stop : Int) : Option Piece :=
  let first := max (max span.start line.start) start
  let last := min (min span.stop line.stop) stop
  if first < last then some ⟨span, first - start, last - start⟩ else none

/-- The pieces between two positions, by going through all lines, and through all spans for each. -/
def allPieces (text : Text) (spans : List Span) (start stop : Int) : List Piece :=
  (lineStretches 0 text).flatMap fun line => spans.filterMap (common? · line start stop)

/-- The position of the line feed that ends a line, if there is such a line and it has one. -/
def feedOf? (text : Text) (line : Int) : Option Nat :=
  if line < 0 then none
  else ((lineStretches 0 text)[line.toNat]?.map (·.stop)).filter (text[·]? = some '\n')

/-- The category of the first of all spans that covers the line feed of a line. -/
def categoryAtFeed (text : Text) (spans : List Span) (line : Int) : Option Category :=
  (feedOf? text line).bind fun position =>
    (spans.find? (·.covers position)).map (·.category)

/-- Taking the part on a line first and the part between two positions then loses nothing. -/
theorem clip?_bind_relative? (span : Span) (line : Stretch) (start stop : Int) :
    (clip? span line.start line.stop).bind (·.relative? start stop) =
      common? span line start stop := by
  by_cases touches : max span.start (line.start : Int) < min span.stop line.stop
  · have piece : clip? span line.start line.stop =
        some ⟨span, max span.start line.start, min span.stop line.stop⟩ := if_pos touches
    have shifted : (max (max span.start line.start) start - start <
        min (min span.stop line.stop) stop - start) ↔
        max (max span.start line.start) start < min (min span.stop line.stop) stop := by omega
    simp only [piece, Option.bind_some, Piece.relative?, common?, shifted]
  · have apart : clip? span line.start line.stop = none := if_neg touches
    rw [apart, Option.bind_none, common?, if_neg]
    omega

/-- An index has the pieces that an exhaustive search finds. -/
theorem spansBetween_eq_allPieces (text : Text) (spans : List Span) (start stop : Int) :
    (ofSpans text spans).spansBetween start stop = allPieces text spans start stop := by
  rw [spansBetween_ofSpans, allPieces]
  apply List.flatMap_congr
  intro line _
  rw [piecesOn]
  simp only [clip?_bind_relative?]

theorem getElem?_stop {text : Text} {line : Nat} {stretch : Stretch}
    (there : (lineStretches 0 text)[line]? = some stretch) :
    text[stretch.stop]? = some '\n' ↔ line + 1 < (Text.lines text).length := by
  constructor
  · intro feed
    apply Nat.lt_of_not_le
    intro last
    have bound := (List.getElem?_eq_some_iff.mp there).1
    rw [lineStretches, Text.length_stretchesOf] at bound
    rw [Text.stop_of_last there (by omega)] at feed
    simp at feed
  · intro more
    rw [lineStretches, Text.getElem?_stretchesOf, Nat.zero_add] at there
    obtain ⟨content, found, rfl⟩ := Option.map_eq_some_iff.mp there
    obtain ⟨later, after⟩ := Text.exists_linesAfter_eq more
    have split := Text.joinLines_eq found
    rw [Text.joinLines_lines, after] at split
    have place : (Text.linesBefore line (Text.lines text) ++ content).length =
        Text.sizeBefore List.length line (Text.lines text) + content.length := by
      rw [List.length_append, Text.length_linesBefore]
    have here : (Text.linesBefore line (Text.lines text) ++ content ++ '\n' :: later)[
        (Text.linesBefore line (Text.lines text) ++ content).length]? = some '\n' := by
      simp
    rwa [← split, place] at here

theorem feedOf?_of_line {text : Text} {line : Nat} {stretch : Stretch}
    (there : (lineStretches 0 text)[line]? = some stretch) :
    feedOf? text line = if line + 1 < (Text.lines text).length then some stretch.stop else none := by
  rw [feedOf?, if_neg (Int.not_lt.mpr (Int.natCast_nonneg line)), Int.toNat_natCast, there,
    Option.map_some, Option.filter_some]
  simp only [decide_eq_true_eq, getElem?_stop there]

/-- An index has the category that an exhaustive search finds at the line feed of a line. -/
theorem endCategory_eq_categoryAtFeed (text : Text) (spans : List Span) (line : Int) :
    (ofSpans text spans).endCategory line = categoryAtFeed text spans line := by
  by_cases negative : line < 0
  · rw [endCategory, if_pos negative, categoryAtFeed, feedOf?, if_pos negative, Option.bind_none]
  obtain ⟨number, rfl⟩ := Int.eq_ofNat_of_zero_le (Int.not_lt.mp negative)
  rw [categoryAtFeed]
  cases there : (lineStretches 0 text)[number]? with
  | none =>
    have shape := hasLinesOf_ofSpans text spans
    have beyond : (ofSpans text spans).buckets.size ≤ number := by
      rw [shape.size, shape.size_starts]
      exact List.getElem?_eq_none_iff.mp there
    rw [endCategory, if_neg negative, feedOf?, if_neg negative, Int.toNat_natCast, there]
    simp [Array.getElem?_eq_none beyond]
  | some stretch =>
    rw [endCategory_ofSpans spans there, feedOf?_of_line there]
    by_cases more : number + 1 < (Text.lines text).length
    · have same : feeds text number stretch = (·.covers stretch.stop) := by
        funext span
        rw [feeds, decide_eq_true more, Bool.true_and, Span.covers]
      rw [if_pos more, Option.bind_some, same]
    · have unfed : spans.find? (feeds text number stretch) = none := by
        simp [feeds, more]
      rw [if_neg more, unfed, Option.map_none, Option.bind_none]

/-- The first line starts at a position or before it unless the position is negative. -/
theorem HasLinesOf.upperBound_pos_iff {index : LineIndex} {text : Text} (shape : index.HasLinesOf text)
    (position : Int) : 0 < Sorted.upperBound index.starts position ↔ 0 ≤ position := by
  obtain ⟨first, others, split⟩ := List.exists_cons_of_ne_nil (Text.lines_ne_nil text)
  have there : (lineStretches 0 text)[0]? = some ⟨0, 0 + first.length⟩ := by
    rw [lineStretches, split]
    rfl
  exact shape.lt_upperBound_iff there position

/-- The line of a position is the last one that starts there or before. -/
theorem HasLinesOf.isGreatest_lineAt {index : LineIndex} {text : Text}
    (shape : index.HasLinesOf text) (position : Nat) :
    IsGreatest {line | ∃ stretch, (lineStretches 0 text)[line]? = some stretch ∧
      stretch.start ≤ position} (index.lineAt position) := by
  constructor
  · have there := List.getElem?_eq_getElem (shape.lineAt_lt position)
    have positive := (shape.upperBound_pos_iff position).mpr (Int.natCast_nonneg position)
    have starts := (shape.lt_upperBound_iff there position).mp (by
      rw [lineAt, lineBefore]
      omega)
    exact ⟨_, there, Int.ofNat_le.mp starts⟩
  · rintro line ⟨stretch, there, starts⟩
    have counted := (shape.lt_upperBound_iff there position).mpr (Int.ofNat_le.mpr starts)
    rw [lineAt, lineBefore]
    omega

/-- The line of a negative position is the first one. -/
theorem HasLinesOf.lineAt_negSucc {index : LineIndex} {text : Text} (shape : index.HasLinesOf text)
    (position : Nat) : index.lineAt (Int.negSucc position) = 0 := by
  have zero := mt (shape.upperBound_pos_iff (Int.negSucc position)).mp (by omega)
  rw [lineAt, lineBefore]
  omega

/-- An index answers as going through all lines and all spans does: for the pieces between any two
positions, for the category at the end of any line, and for the line of any position. -/
theorem ofSpans_eq_exhaustive (text : Text) (spans : List Span) :
    (∀ start stop, (ofSpans text spans).spansBetween start stop =
      allPieces text spans start stop) ∧
    (∀ line, (ofSpans text spans).endCategory line = categoryAtFeed text spans line) ∧
    (∀ position : Nat, IsGreatest {line | ∃ stretch, (lineStretches 0 text)[line]? = some stretch ∧
      stretch.start ≤ position} ((ofSpans text spans).lineAt position)) ∧
    ∀ position : Nat, (ofSpans text spans).lineAt (Int.negSucc position) = 0 := by
  have shape := hasLinesOf_ofSpans text spans
  exact ⟨spansBetween_eq_allPieces text spans, endCategory_eq_categoryAtFeed text spans,
    shape.isGreatest_lineAt, shape.lineAt_negSucc⟩

end LineIndex

end KotlinHighlight
