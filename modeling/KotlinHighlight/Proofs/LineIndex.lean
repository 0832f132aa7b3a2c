import Mathlib.Data.List.Basic
import KotlinHighlight.Proofs.Lines

/-! # What a line index holds

The buckets of an index are what going through all spans would give: line by line, the parts of the
spans on that line in order (`pieces_ofSpans`), and the first span that covers the line feed after it
(`endCategory_ofSpans`). So what an index answers for an interval is the list of the parts there
(`spansBetween_ofSpans`), and for an interval of whole lines it depends only on what is seen of the
spans through that interval (`shown_spansBetween`).
-/

namespace KotlinHighlight

namespace Span

/-- The part of a span in an interval, unless it is empty. -/
def clip? (span : Span) (start stop : Int) : Option Span :=
  let part : Span := { span with start := max span.start start, stop := min span.stop stop }
  if part.start < part.stop then some part else none

/-- A span counted from a position. -/
def countedFrom (start : Int) (span : Span) : Span :=
  { span with start := span.start - start, stop := span.stop - start }

/-- The part of a span in an interval, counted from the start of the interval. -/
def seen? (span : Span) (start stop : Int) : Option Span :=
  (span.clip? start stop).map (·.countedFrom start)

def covers (position : Int) (span : Span) : Bool :=
  decide (span.start ≤ position) && decide (position < span.stop)

theorem covers_iff {position : Int} {span : Span} :
    span.covers position = true ↔ span.start ≤ position ∧ position < span.stop := by
  rw [covers, Bool.and_eq_true, decide_eq_true_eq, decide_eq_true_eq]

theorem seen?_of_lt {span : Span} {start stop : Int}
    (touches : max span.start start < min span.stop stop) : span.seen? start stop =
      some { span with start := max span.start start - start, stop := min span.stop stop - start } := by
  have part : span.clip? start stop =
      some { span with start := max span.start start, stop := min span.stop stop } := if_pos touches
  rw [seen?, part, Option.map_some]
  rfl

theorem seen?_of_le {span : Span} {start stop : Int}
    (apart : min span.stop stop ≤ max span.start start) : span.seen? start stop = none := by
  have part : span.clip? start stop = none := if_neg (Int.not_lt.mpr apart)
  rw [seen?, part, Option.map_none]

/-- The part of a span on a line within an interval is a part of what is seen of the span there. -/
theorem clip?_countedFrom (span : Span) {start stop first last : Int} (starts : start ≤ first)
    (stops : last ≤ stop) : (span.clip? first last).map (·.countedFrom start) =
      (span.seen? start stop).bind (·.clip? (first - start) (last - start)) := by
  by_cases touches : max span.start first < min span.stop last
  · have part : span.clip? first last =
        some { span with start := max span.start first, stop := min span.stop last } :=
      if_pos touches
    have left : max (max span.start start - start) (first - start) =
        max span.start first - start := by omega
    have right : min (min span.stop stop - start) (last - start) =
        min span.stop last - start := by omega
    rw [part, seen?_of_lt (by omega), Option.bind_some, Option.map_some, clip?]
    simp only [left, right]
    rw [if_pos (by omega)]
    rfl
  · have part : span.clip? first last = none := if_neg touches
    rw [part, Option.map_none, eq_comm, Option.bind_eq_none_iff]
    intro seen found
    obtain ⟨_, clipped, rfl⟩ := Option.map_eq_some_iff.mp found
    obtain ⟨_, same⟩ := Option.ite_none_right_eq_some.mp clipped
    obtain rfl := Option.some.inj same
    apply if_neg
    simp only [countedFrom]
    omega

end Span

def Piece.shown (piece : Piece) : Span :=
  { piece.span with start := piece.start, stop := piece.stop }

namespace LineIndex

open Text (lineStarts lineStretches)

structure HasLinesOf (index : LineIndex) (text : Text) : Prop where
  length : index.length = text.length
  starts : index.starts = (lineStarts text).toArray
  size : index.buckets.size = index.starts.size

theorem HasLinesOf.size_starts {index : LineIndex} {text : Text} (shape : index.HasLinesOf text) :
    index.starts.size = (lineStretches 0 text).length := by
  rw [shape.starts, List.size_toArray, Text.lineStarts_eq_map, List.length_map]

theorem HasLinesOf.startOf {index : LineIndex} {text : Text} (shape : index.HasLinesOf text)
    {line : Nat} {stretch : Stretch} (there : (lineStretches 0 text)[line]? = some stretch) :
    index.startOf line = stretch.start := by
  simp [LineIndex.startOf, shape.starts, Text.lineStarts_eq_map, there]

theorem HasLinesOf.hasLineFeed {index : LineIndex} {text : Text} (shape : index.HasLinesOf text)
    (line : Nat) : index.hasLineFeed line = decide (line + 1 < (lineStretches 0 text).length) := by
  rw [LineIndex.hasLineFeed, shape.size_starts]

/-- A line stops before the line feed that the next line starts after, and the last line stops at
the end of the text. -/
theorem HasLinesOf.stopOf {index : LineIndex} {text : Text} (shape : index.HasLinesOf text)
    {line : Nat} {stretch : Stretch} (there : (lineStretches 0 text)[line]? = some stretch) :
    index.stopOf line = stretch.stop := by
  have bound := (List.getElem?_eq_some_iff.mp there).1
  rw [LineIndex.stopOf, shape.hasLineFeed]
  by_cases more : line + 1 < (lineStretches 0 text).length
  · have follows := List.getElem?_eq_getElem more
    rw [if_pos (decide_eq_true more), shape.startOf follows,
      Text.start_of_getElem?_succ there follows, Nat.add_sub_cancel]
  · have last : line + 1 = (Text.lines text).length := by
      rw [lineStretches, Text.length_stretchesOf] at bound more
      omega
    rw [if_neg (by simpa using more), shape.length, Text.stop_of_last there last]

theorem hasLinesOf_blank (text : Text) : (blank text).HasLinesOf text where
  length := rfl
  starts := rfl
  size := by simp [blank]

theorem HasLinesOf.insertAt {index : LineIndex} {text : Text} (shape : index.HasLinesOf text)
    (span : Span) (line : Nat) : (LineIndex.insertAt span index line).HasLinesOf text where
  length := shape.length
  starts := shape.starts
  size := by simpa [LineIndex.insertAt] using shape.size

/-- What a bucket takes in depends on the lines only. -/
theorem fill_congr {first second : LineIndex} {text : Text} (one : first.HasLinesOf text)
    (other : second.HasLinesOf text) : first.fill = second.fill := by
  have starts : first.starts = second.starts := one.starts.trans other.starts.symm
  have length : first.length = second.length := one.length.trans other.length.symm
  funext span line bucket
  unfold fill coversLineFeed LineIndex.stopOf LineIndex.hasLineFeed LineIndex.startOf
  rw [starts, length]

theorem HasLinesOf.increasing {index : LineIndex} {text : Text} (shape : index.HasLinesOf text) :
    Sorted.Increasing index.starts := by
  intro first second ordered within
  rw [shape.size_starts] at within
  have follows := List.getElem?_eq_getElem within
  have precedes := List.getElem?_eq_getElem (Nat.lt_of_le_of_lt ordered within)
  have one := shape.startOf precedes
  have other := shape.startOf follows
  rw [LineIndex.startOf] at one other
  rw [one, other]
  rcases Nat.eq_or_lt_of_le ordered with rfl | before
  · exact Nat.le_refl _
  · have parted := List.pairwise_iff_getElem.mp (Text.pairwise_stretchesOf 0 (Text.lines text))
      first second (Nat.lt_of_le_of_lt ordered within) within before
    have bounds := Text.mem_lineStretches_bounds (List.mem_of_getElem? precedes)
    exact Nat.le_of_lt (Nat.lt_of_le_of_lt bounds.2.1 parted)

theorem HasLinesOf.lt_upperBound_iff {index : LineIndex} {text : Text}
    (shape : index.HasLinesOf text) {line : Nat} {stretch : Stretch}
    (there : (lineStretches 0 text)[line]? = some stretch) (position : Int) :
    line < Sorted.upperBound index.starts position ↔ (stretch.start : Int) ≤ position := by
  have bound := (List.getElem?_eq_some_iff.mp there).1
  have start := shape.startOf there
  rw [LineIndex.startOf] at start
  rw [Sorted.lt_upperBound_iff shape.increasing (by rwa [shape.size_starts]), start]

theorem HasLinesOf.lineAt_lt {index : LineIndex} {text : Text} (shape : index.HasLinesOf text)
    (position : Int) : index.lineAt position < (lineStretches 0 text).length := by
  have nonempty : 0 < (lineStretches 0 text).length := by
    rw [lineStretches, Text.length_stretchesOf]
    exact List.length_pos_iff.mpr (Text.lines_ne_nil text)
  have size := Sorted.upperBound_le_size index.starts position
  rw [shape.size_starts] at size
  rw [lineAt, lineBefore]
  omega

/-- A position is on the line that is found for it, or at its end, or that line is the last. -/
theorem HasLinesOf.le_stop_of_lineAt {index : LineIndex} {text : Text}
    (shape : index.HasLinesOf text) {position : Int} {stretch : Stretch}
    (there : (lineStretches 0 text)[index.lineAt position]? = some stretch)
    (more : index.lineAt position + 1 < (lineStretches 0 text).length) :
    position ≤ stretch.stop := by
  have follows := List.getElem?_eq_getElem more
  have beyond := mt (shape.lt_upperBound_iff follows position).mpr (by
    rw [lineAt, lineBefore]
    omega)
  rw [Text.start_of_getElem?_succ there follows] at beyond
  omega

theorem HasLinesOf.lineAt_eq {index : LineIndex} {text : Text} (shape : index.HasLinesOf text)
    {line : Nat} {stretch : Stretch} (there : (lineStretches 0 text)[line]? = some stretch)
    {position : Int} (starts : stretch.start ≤ position) (stops : position ≤ stretch.stop) :
    index.lineAt position = line := by
  have counted := (shape.lt_upperBound_iff there position).mpr starts
  have latest : Sorted.upperBound index.starts position ≤ line + 1 := by
    apply Nat.le_of_not_lt
    intro beyond
    have size := Sorted.upperBound_le_size index.starts position
    rw [shape.size_starts] at size
    have follows :=
      List.getElem?_eq_getElem (show line + 1 < (lineStretches 0 text).length by omega)
    have reached := (shape.lt_upperBound_iff follows position).mp beyond
    rw [Text.start_of_getElem?_succ there follows] at reached
    omega
  rw [lineAt, lineBefore]
  omega

/-- A span is put into each line that it touches, up to the line feed after it. -/
theorem HasLinesOf.mem_linesOf {index : LineIndex} {text : Text} (shape : index.HasLinesOf text)
    {line : Nat} {stretch : Stretch} (there : (lineStretches 0 text)[line]? = some stretch)
    {span : Span} (starts : span.start ≤ stretch.stop) (stops : stretch.start < span.stop) :
    line ∈ index.linesOf span := by
  have upTo : line < Sorted.upperBound index.starts (max (span.stop - 1) span.start) :=
    (shape.lt_upperBound_iff there _).mpr (by omega)
  have since : Sorted.upperBound index.starts span.start ≤ line + 1 := by
    apply Nat.le_of_not_lt
    intro beyond
    have size := Sorted.upperBound_le_size index.starts span.start
    rw [shape.size_starts] at size
    have follows := List.getElem?_eq_getElem (show line + 1 < (lineStretches 0 text).length by omega)
    have reached := (shape.lt_upperBound_iff follows span.start).mp (by omega)
    have next := Text.start_of_getElem?_succ there follows
    omega
  rw [linesOf, List.mem_range'_1, lineBefore, lineBefore]
  omega

/-- A span leaves the bucket of a line that it does not touch as it is. -/
theorem HasLinesOf.fill_eq_self {index : LineIndex} {text : Text} (shape : index.HasLinesOf text)
    {line : Nat} {stretch : Stretch} (there : (lineStretches 0 text)[line]? = some stretch)
    {span : Span} (apart : line ∉ index.linesOf span) (bucket : LineBucket) :
    index.fill span line bucket = bucket := by
  have bounds := Text.mem_lineStretches_bounds (List.mem_of_getElem? there)
  have outside : ¬(span.start ≤ stretch.stop ∧ stretch.start < span.stop) :=
    fun touches => apart (shape.mem_linesOf there touches.1 touches.2)
  have noPiece : clip? span (index.startOf line) (index.stopOf line) = none := by
    rw [shape.startOf there, shape.stopOf there, clip?]
    simp only [ite_eq_right_iff, reduceCtorEq, imp_false]
    omega
  have noFeed : index.coversLineFeed span line = false := by
    rw [coversLineFeed, shape.stopOf there, Bool.and_eq_false_iff, Bool.and_eq_false_iff]
    simp only [decide_eq_false_iff_not]
    omega
  simp [fill, noPiece, noFeed]

theorem bucket_insertAt (index : LineIndex) (span : Span) (first : Nat) {line : Nat}
    (valid : line < index.buckets.size) :
    (insertAt span index first).buckets.getD line {} =
      if first = line then index.fill span line (index.buckets.getD line {})
      else index.buckets.getD line {} := by
  rw [insertAt, Array.getD_eq_getD_getElem?, Array.getD_eq_getD_getElem?, Array.getElem?_modify,
    Array.getElem?_eq_getElem valid]
  by_cases here : first = line
  · rw [if_pos here, if_pos here, here, Option.map_some, Option.getD_some, Option.getD_some]
  · rw [if_neg here, if_neg here]

/-- Putting a span into some lines fills their buckets and no others. -/
theorem HasLinesOf.bucket_foldl_insertAt {index : LineIndex} {text : Text}
    (shape : index.HasLinesOf text) (span : Span) {lines : List Nat} (once : lines.Nodup)
    {line : Nat} (valid : line < index.buckets.size) :
    (lines.foldl (LineIndex.insertAt span) index).buckets.getD line {} =
      if line ∈ lines then index.fill span line (index.buckets.getD line {})
      else index.buckets.getD line {} := by
  induction lines generalizing index with
  | nil => rfl
  | cons first others ih =>
    obtain ⟨new, onceMore⟩ := List.nodup_cons.mp once
    have valid' : line < (LineIndex.insertAt span index first).buckets.size := by
      rwa [LineIndex.insertAt, Array.size_modify]
    rw [List.foldl_cons, ih (shape.insertAt span first) onceMore valid',
      index.bucket_insertAt span first valid, fill_congr (shape.insertAt span first) shape]
    by_cases here : first = line
    · subst here
      simp [new]
    · simp [here, Ne.symm here]

theorem HasLinesOf.foldl_insertAt {index : LineIndex} {text : Text} (shape : index.HasLinesOf text)
    (span : Span) (lines : List Nat) :
    (lines.foldl (LineIndex.insertAt span) index).HasLinesOf text := by
  induction lines generalizing index with
  | nil => exact shape
  | cons first others ih => exact ih (shape.insertAt span first)

/-- Putting in a span fills every bucket, where those of untouched lines stay as they are. -/
theorem HasLinesOf.bucket_insert {index : LineIndex} {text : Text} (shape : index.HasLinesOf text)
    (span : Span) {line : Nat} {stretch : Stretch}
    (there : (lineStretches 0 text)[line]? = some stretch) :
    (index.insert span).buckets.getD line {} =
      index.fill span line (index.buckets.getD line {}) := by
  have valid : line < index.buckets.size := by
    rw [shape.size, shape.size_starts]
    exact (List.getElem?_eq_some_iff.mp there).1
  have once : (index.linesOf span).Nodup := List.nodup_range'
  rw [LineIndex.insert, shape.bucket_foldl_insertAt span once valid]
  by_cases touched : line ∈ index.linesOf span
  · rw [if_pos touched]
  · rw [if_neg touched, shape.fill_eq_self there touched]

theorem HasLinesOf.insert {index : LineIndex} {text : Text} (shape : index.HasLinesOf text)
    (span : Span) : (index.insert span).HasLinesOf text :=
  shape.foldl_insertAt span _

theorem HasLinesOf.foldl_insert {index : LineIndex} {text : Text} (shape : index.HasLinesOf text)
    (spans : List Span) : (spans.foldl LineIndex.insert index).HasLinesOf text := by
  induction spans generalizing index with
  | nil => exact shape
  | cons span others ih => exact ih (shape.insert span)

theorem hasLinesOf_ofSpans (text : Text) (spans : List Span) : (ofSpans text spans).HasLinesOf text :=
  (hasLinesOf_blank text).foldl_insert spans

/-- A bucket takes in the pieces of the spans on its line, in order. -/
theorem HasLinesOf.pieces_foldl_insert {index : LineIndex} {text : Text}
    (shape : index.HasLinesOf text) (spans : List Span) {line : Nat} {stretch : Stretch}
    (there : (lineStretches 0 text)[line]? = some stretch) :
    ((spans.foldl LineIndex.insert index).buckets.getD line {}).pieces.toList =
      (index.buckets.getD line {}).pieces.toList ++
        spans.filterMap (clip? · stretch.start stretch.stop) := by
  induction spans generalizing index with
  | nil => simp
  | cons span others ih =>
    rw [List.foldl_cons, ih (shape.insert span), shape.bucket_insert span there, fill,
      shape.startOf there, shape.stopOf there, List.filterMap_cons]
    cases clip? span stretch.start stretch.stop with
    | none => rfl
    | some piece => simp

/-- Whether a span covers the line feed at the stop of a line of a text. -/
def feeds (text : Text) (line : Nat) (stretch : Stretch) (span : Span) : Bool :=
  decide (line + 1 < (Text.lines text).length) &&
    decide (span.start ≤ stretch.stop) && decide (stretch.stop < span.stop)

/-- A bucket keeps the category of the first span that covers its line feed. -/
theorem HasLinesOf.ending_foldl_insert {index : LineIndex} {text : Text}
    (shape : index.HasLinesOf text) (spans : List Span) {line : Nat} {stretch : Stretch}
    (there : (lineStretches 0 text)[line]? = some stretch) :
    ((spans.foldl LineIndex.insert index).buckets.getD line {}).ending =
      ((index.buckets.getD line {}).ending <|>
        (spans.find? (feeds text line stretch)).map (·.category)) := by
  induction spans generalizing index with
  | nil => simp
  | cons span others ih =>
    have covers : index.coversLineFeed span line = feeds text line stretch span := by
      rw [coversLineFeed, shape.stopOf there, shape.hasLineFeed, lineStretches,
        Text.length_stretchesOf, feeds]
    rw [List.foldl_cons, ih (shape.insert span), shape.bucket_insert span there, fill, covers,
      List.find?_cons]
    cases (index.buckets.getD line {}).ending <;> cases feeds text line stretch span <;> simp

theorem bucket_blank (text : Text) (line : Nat) : (blank text).buckets.getD line {} = {} := by
  rw [blank, Array.getD_eq_getD_getElem?, Array.getElem?_map]
  cases (lineStarts text).toArray[line]? <;> rfl

/-- The bucket of a line holds the pieces of all spans on it, in order. -/
theorem pieces_ofSpans {text : Text} (spans : List Span) {line : Nat} {stretch : Stretch}
    (there : (lineStretches 0 text)[line]? = some stretch) :
    ((ofSpans text spans).buckets.getD line {}).pieces.toList =
      spans.filterMap (clip? · stretch.start stretch.stop) := by
  rw [ofSpans, (hasLinesOf_blank text).pieces_foldl_insert spans there, bucket_blank]
  rfl

theorem endCategory_ofSpans {text : Text} (spans : List Span) {line : Nat} {stretch : Stretch}
    (there : (lineStretches 0 text)[line]? = some stretch) :
    (ofSpans text spans).endCategory line =
      (spans.find? (feeds text line stretch)).map (·.category) := by
  rw [endCategory, if_neg (by omega), Int.toNat_natCast, ofSpans,
    (hasLinesOf_blank text).ending_foldl_insert spans there, bucket_blank]
  rfl

/-- A line before a line feed ends in the category of the first span that covers the line feed. -/
theorem endCategory_of_feed {text before after : Text} (split : text = before ++ '\n' :: after)
    (spans : List Span) {line : Nat} {stretch : Stretch}
    (there : (lineStretches 0 text)[line]? = some stretch) (stop : stretch.stop = before.length) :
    (ofSpans text spans).endCategory line =
      (spans.find? (·.covers before.length)).map (·.category) := by
  have more : line + 1 < (Text.lines text).length := by
    apply Nat.lt_of_not_le
    intro last
    have bound := (List.getElem?_eq_some_iff.mp there).1
    rw [lineStretches, Text.length_stretchesOf] at bound
    have whole := Text.stop_of_last there (by omega)
    rw [stop, split, List.length_append, List.length_cons] at whole
    omega
  have same : feeds text line stretch = (·.covers before.length) := by
    funext span
    rw [feeds, stop, decide_eq_true more, Bool.true_and, Span.covers]
  rw [endCategory_ofSpans spans there, same]

/-- The last line ends in no category. -/
theorem endCategory_of_last {text : Text} (spans : List Span) {line : Nat}
    (last : line + 1 = (Text.lines text).length) : (ofSpans text spans).endCategory line = none := by
  have valid : line < (lineStretches 0 text).length := by
    rw [lineStretches, Text.length_stretchesOf]
    omega
  rw [endCategory_ofSpans spans (List.getElem?_eq_getElem valid), Option.map_eq_none_iff,
    List.find?_eq_none]
  intro span _ covers
  simp only [feeds, Bool.and_eq_true, decide_eq_true_eq] at covers
  omega

/-- What the spans of a text come to on one line and between two positions. -/
def piecesOn (spans : List Span) (start stop : Int) (line : Stretch) : List Piece :=
  spans.filterMap fun span => (clip? span line.start line.stop).bind (·.relative? start stop)

theorem piecesOn_eq_nil (spans : List Span) {start stop : Int} {line : Stretch}
    (apart : line.stop ≤ start ∨ stop ≤ line.start) : piecesOn spans start stop line = [] := by
  rw [piecesOn, List.filterMap_eq_nil_iff]
  intro span _
  rw [Option.bind_eq_none_iff]
  intro piece found
  simp only [clip?, Option.ite_none_right_eq_some, Option.some.injEq] at found
  obtain ⟨_, rfl⟩ := found
  simp only [Piece.relative?, ite_eq_right_iff, reduceCtorEq, imp_false]
  omega

theorem flatMap_range'_eq {α β : Type} {items : List α} {content : α → List β}
    {numbered : Nat → List β} {first : Nat}
    (agree : ∀ index item, items[index]? = some item → numbered (first + index) = content item) :
    (List.range' first items.length).flatMap numbered = items.flatMap content := by
  induction items generalizing first with
  | nil => rfl
  | cons item others ih =>
    rw [List.length_cons, List.range'_succ, List.flatMap_cons, List.flatMap_cons]
    have here := agree 0 item rfl
    have later := @ih (first + 1) fun index other found => by
      have moved : first + 1 + index = first + (index + 1) := by omega
      rw [moved]
      exact agree (index + 1) other (by simpa using found)
    rw [later, ← here, Nat.add_zero]

theorem flatMap_range'_of_eq_nil {β : Type} {numbered : Nat → List β} {first count total : Nat}
    (within : first + count ≤ total)
    (outside : ∀ number, number < first ∨ first + count ≤ number → number < total →
      numbered number = []) :
    (List.range' 0 total).flatMap numbered = (List.range' first count).flatMap numbered := by
  have split : List.range' 0 total = List.range' 0 first ++
      (List.range' first count ++ List.range' (first + count) (total - (first + count))) := by
    have whole : first + (count + (total - (first + count))) = total := by omega
    have all := List.range'_append_1 (s := 0) (m := first) (n := count + (total - (first + count)))
    rw [Nat.zero_add, whole] at all
    rw [List.range'_append_1, all]
  have before : (List.range' 0 first).flatMap numbered = [] := by
    rw [List.flatMap_eq_nil_iff]
    intro number member
    rw [List.mem_range'_1] at member
    exact outside number (by omega) (by omega)
  have after : (List.range' (first + count) (total - (first + count))).flatMap numbered = [] := by
    rw [List.flatMap_eq_nil_iff]
    intro number member
    rw [List.mem_range'_1] at member
    exact outside number (by omega) (by omega)
  rw [split, List.flatMap_append, List.flatMap_append, before, after, List.nil_append,
    List.append_nil]

/-- Looking up the lines of an interval loses nothing: the answer has the pieces of all spans on all
lines. -/
theorem spansBetween_ofSpans (text : Text) (spans : List Span) (start stop : Int) :
    (ofSpans text spans).spansBetween start stop =
      (lineStretches 0 text).flatMap (piecesOn spans start stop) := by
  have shape := hasLinesOf_ofSpans text spans
  generalize found : ofSpans text spans = index at shape
  have agree : ∀ line stretch, (lineStretches 0 text)[line]? = some stretch →
      (index.buckets.getD (0 + line) {}).pieces.toList.filterMap (·.relative? start stop) =
        piecesOn spans start stop stretch := by
    intro line stretch there
    rw [Nat.zero_add, ← found, pieces_ofSpans spans there, List.filterMap_filterMap, piecesOn]
  have all : (List.range' 0 (lineStretches 0 text).length).flatMap (fun line =>
      (index.buckets.getD line {}).pieces.toList.filterMap (·.relative? start stop)) =
      (lineStretches 0 text).flatMap (piecesOn spans start stop) := flatMap_range'_eq agree
  rw [spansBetween, ← all]
  symm
  have first := shape.lineAt_lt start
  have last := shape.lineAt_lt stop
  apply flatMap_range'_of_eq_nil (by omega)
  intro line outside valid
  have there := List.getElem?_eq_getElem valid
  have empty := agree line _ there
  rw [Nat.zero_add] at empty
  rw [empty]
  apply piecesOn_eq_nil
  rw [lineAt, lineBefore, lineAt, lineBefore] at outside
  by_cases early : line + 1 < Sorted.upperBound index.starts start
  · left
    have size := Sorted.upperBound_le_size index.starts start
    rw [shape.size_starts] at size
    have follows := List.getElem?_eq_getElem (show line + 1 < (lineStretches 0 text).length by omega)
    have reached := (shape.lt_upperBound_iff follows start).mp early
    rw [Text.start_of_getElem?_succ there follows] at reached
    omega
  · right
    have beyond : ¬line < Sorted.upperBound index.starts stop := by omega
    rw [shape.lt_upperBound_iff there stop] at beyond
    omega

/-- A piece on a line within an interval is the part of the span on that line. -/
theorem shown_bind_relative? (span : Span) {start stop first last : Int} (starts : start ≤ first)
    (stops : last ≤ stop) : ((clip? span first last).bind (·.relative? start stop)).map Piece.shown =
      (span.clip? first last).map (·.countedFrom start) := by
  by_cases touches : max span.start first < min span.stop last
  · have piece : clip? span first last = some ⟨span, max span.start first, min span.stop last⟩ :=
      if_pos touches
    have part : span.clip? first last =
        some { span with start := max span.start first, stop := min span.stop last } :=
      if_pos touches
    have left : max (max span.start first) start - start = max span.start first - start := by omega
    have right : min (min span.stop last) stop - start = min span.stop last - start := by omega
    rw [piece, part, Option.bind_some, Option.map_some, Piece.relative?]
    simp only [left, right]
    rw [if_pos (by omega)]
    rfl
  · have piece : clip? span first last = none := if_neg touches
    have part : span.clip? first last = none := if_neg touches
    rw [piece, part, Option.bind_none, Option.map_none, Option.map_none]

/-- For whole lines an index shows the parts of the spans on them, line by line. -/
theorem shown_spansBetween {before after : Text} (starts : Text.StartsLine before)
    (stops : Text.StopsLine after) (middle : Text) (spans : List Span) :
    ((ofSpans (before ++ middle ++ after) spans).spansBetween before.length
        (before.length + middle.length)).map Piece.shown =
      (lineStretches before.length middle).flatMap fun line => spans.filterMap fun span =>
        (span.clip? line.start line.stop).map (·.countedFrom before.length) := by
  obtain ⟨earlier, later, split, early, late⟩ := Text.exists_lineStretches_eq starts stops middle
  have none_early : earlier.flatMap (piecesOn spans before.length
      (before.length + middle.length)) = [] := by
    rw [List.flatMap_eq_nil_iff]
    intro line member
    have bound := early line member
    exact piecesOn_eq_nil spans (.inl (by omega))
  have none_late : later.flatMap (piecesOn spans before.length
      (before.length + middle.length)) = [] := by
    rw [List.flatMap_eq_nil_iff]
    intro line member
    have bound := late line member
    exact piecesOn_eq_nil spans (.inr (by omega))
  rw [spansBetween_ofSpans, split, List.flatMap_append, List.flatMap_append, none_early, none_late,
    List.nil_append, List.append_nil, List.map_flatMap]
  apply List.flatMap_congr
  intro line member
  have bounds := Text.mem_lineStretches_bounds member
  rw [piecesOn, List.map_filterMap]
  exact List.filterMap_congr fun span _ => shown_bind_relative? span (by omega) (by omega)

/-- What an index shows of whole lines depends only on what is seen of the spans through them. -/
theorem shown_spansBetween_seen {before after : Text} (starts : Text.StartsLine before)
    (stops : Text.StopsLine after) (middle : Text) (spans : List Span) :
    ((ofSpans (before ++ middle ++ after) spans).spansBetween before.length
        (before.length + middle.length)).map Piece.shown =
      (lineStretches 0 middle).flatMap fun line =>
        (spans.filterMap (·.seen? before.length (before.length + middle.length))).filterMap
          (·.clip? line.start line.stop) := by
  have moved := Text.stretchesOf_add 0 before.length (Text.lines middle)
  rw [Nat.zero_add] at moved
  rw [shown_spansBetween starts stops, lineStretches, moved, List.flatMap_map]
  apply List.flatMap_congr
  intro line member
  have bounds := Text.mem_lineStretches_bounds member
  rw [List.filterMap_filterMap]
  apply List.filterMap_congr
  intro span _
  dsimp only
  have starts' : (before.length : Int) ≤ (line.start + before.length : Nat) := by omega
  have stops' : ((line.stop + before.length : Nat) : Int) ≤ before.length + middle.length := by omega
  rw [span.clip?_countedFrom starts' stops']
  have first : ((line.start + before.length : Nat) : Int) - before.length = line.start := by omega
  have last : ((line.stop + before.length : Nat) : Int) - before.length = line.stop := by omega
  rw [first, last]

/-- A piece is what a span, a line and the interval have in common. -/
theorem exists_part_of_mem_spansBetween {text : Text} {spans : List Span} {start stop : Int}
    {piece : Piece} (member : piece ∈ (ofSpans text spans).spansBetween start stop) :
    ∃ line ∈ lineStretches 0 text, ∃ span ∈ spans,
      piece = ⟨span, max (max span.start line.start) start - start,
          min (min span.stop line.stop) stop - start⟩ ∧
        max span.start (line.start : Int) < min span.stop line.stop ∧ piece.start < piece.stop := by
  rw [spansBetween_ofSpans, List.mem_flatMap] at member
  obtain ⟨line, inText, onLine⟩ := member
  obtain ⟨span, marked, part⟩ := List.mem_filterMap.mp onLine
  obtain ⟨clipped, found, seen⟩ := Option.bind_eq_some_iff.mp part
  simp only [clip?, Option.ite_none_right_eq_some, Option.some.injEq] at found
  obtain ⟨touches, rfl⟩ := found
  simp only [Piece.relative?, Option.ite_none_right_eq_some, Option.some.injEq] at seen
  obtain ⟨meet, rfl⟩ := seen
  exact ⟨line, inText, span, marked, rfl, touches, meet⟩

/-- The pieces between two positions are of the spans of the index. -/
theorem span_mem_of_mem_spansBetween {text : Text} {spans : List Span} {start stop : Int}
    {piece : Piece} (member : piece ∈ (ofSpans text spans).spansBetween start stop) :
    piece.span ∈ spans := by
  obtain ⟨line, -, span, marked, rfl, -⟩ := exists_part_of_mem_spansBetween member
  exact marked

/-- A piece ends after a character that its span covers, at the start of the interval or later. -/
theorem exists_place_of_mem_spansBetween {text : Text} {spans : List Span} {start stop : Int}
    {piece : Piece} (member : piece ∈ (ofSpans text spans).spansBetween start stop) :
    ∃ span ∈ spans, ∃ place : Nat, start + piece.stop = place + 1 ∧ start ≤ place ∧
      span.start ≤ place ∧ place < span.stop ∧ text[place]?.any (· != '\n') = true := by
  obtain ⟨line, inText, span, marked, rfl, touches, meet⟩ := exists_part_of_mem_spansBetween member
  dsimp only at meet ⊢
  refine ⟨span, marked, (min (min span.stop line.stop) stop - 1).toNat, ?_, ?_, ?_, ?_,
    Text.exists_line_iff.mp ⟨line, inText, ?_, ?_⟩⟩ <;> omega

section Before

variable (text : Text) {spans : List Span} {position : Int}
  (before : ∀ span ∈ spans, span.stop ≤ position)
include before

/-- After all spans an index shows nothing. -/
theorem spansBetween_eq_nil_of_le (stop : Int) :
    (ofSpans text spans).spansBetween position stop = [] := by
  rw [List.eq_nil_iff_forall_not_mem]
  intro piece member
  obtain ⟨span, marked, place, -, late, -, early, -⟩ := exists_place_of_mem_spansBetween member
  have bound := before span marked
  omega

/-- After all spans no line ends in a category. -/
theorem endCategory_lineAt_of_le :
    (ofSpans text spans).endCategory ((ofSpans text spans).lineAt position) = none := by
  have shape := hasLinesOf_ofSpans text spans
  have there := List.getElem?_eq_getElem (shape.lineAt_lt position)
  rw [endCategory_ofSpans spans there, Option.map_eq_none_iff, List.find?_eq_none]
  intro span marked covers
  simp only [feeds, Bool.and_eq_true, decide_eq_true_eq] at covers
  have more : (ofSpans text spans).lineAt position + 1 < (lineStretches 0 text).length := by
    rw [lineStretches, Text.length_stretchesOf]
    exact covers.1.1
  have late := shape.le_stop_of_lineAt there more
  have bound := before span marked
  omega

end Before

end LineIndex

end KotlinHighlight
