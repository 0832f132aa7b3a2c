import KotlinHighlight.ErrorLocation
import KotlinHighlight.Proofs.LineIndex.Exhaustive

/-! # Lines and columns of offsets

Each offset stands on one line, at one column (`exists_place`), and the line and the column can be
counted from the text before the offset (`lineNumber_place`, `columnNumber_place`). So the offset of a
line and a column stands on that line, where a line index finds it too, and every offset is that of
its own line and column (`offset?_inverse_location`).
-/

namespace KotlinHighlight.Text

/-- The line of an offset, counted from one: the line feeds before it tell. -/
def lineNumber (text : Text) (offset : Nat) : Nat :=
  (text.take offset).count '\n' + 1

/-- The column of an offset, counted from one: the characters since the last line feed tell. -/
def columnNumber (text : Text) (offset : Nat) : Nat :=
  ((text.take offset).reverse.takeWhile (· != '\n')).length + 1

/-- A place on one of some lines comes before the end of the lines, and each such place is on one. -/
theorem exists_place_of_lt {texts : List Text} {offset : Nat}
    (within : offset < sizeBefore List.length texts.length texts) :
    ∃ number content column, texts[number]? = some content ∧ column ≤ content.length ∧
      offset = sizeBefore List.length number texts + column := by
  induction texts generalizing offset with
  | nil => exact absurd within (Nat.not_lt_zero _)
  | cons first others ih =>
    rw [List.length_cons, sizeBefore] at within
    by_cases here : offset ≤ first.length
    · exact ⟨0, first, offset, rfl, here, (Nat.zero_add _).symm⟩
    · obtain ⟨number, content, column, there, inLine, same⟩ :=
        @ih (offset - (first.length + 1)) (by omega)
      refine ⟨number + 1, content, column, there, inLine, ?_⟩
      rw [sizeBefore]
      omega

theorem exists_place {text : Text} {offset : Nat} (within : offset ≤ text.length) :
    ∃ number content column, (lines text)[number]? = some content ∧ column ≤ content.length ∧
      offset = sizeBefore List.length number (lines text) + column := by
  apply exists_place_of_lt
  rw [sizeBefore_lines]
  exact Nat.lt_succ_of_le within

section Place

variable {text content : Text} {number column : Nat} (there : (lines text)[number]? = some content)
  (inLine : column ≤ content.length)
include there inLine

/-- Before a place on a line stand the lines before it and the characters before it. -/
theorem take_place : text.take (sizeBefore List.length number (lines text) + column) =
    linesBefore number (lines text) ++ content.take column := by
  have split := joinLines_eq there
  rw [joinLines_lines, List.append_assoc] at split
  have taken := congrArg (List.take (sizeBefore List.length number (lines text) + column)) split
  rw [taken, ← length_linesBefore, List.take_length_add_append, List.take_append_of_le_length inLine]

theorem place_le_length : sizeBefore List.length number (lines text) + column ≤ text.length := by
  have whole := congrArg List.length (joinLines_eq there)
  rw [joinLines_lines, List.length_append, List.length_append, length_linesBefore] at whole
  omega

theorem lineNumber_place :
    lineNumber text (sizeBefore List.length number (lines text) + column) = number + 1 := by
  have bound := (List.getElem?_eq_some_iff.mp there).1
  have unbroken : '\n' ∉ content.take column :=
    fun inside => not_mem_of_mem_lines (List.mem_of_getElem? there) (List.mem_of_mem_take inside)
  rw [lineNumber, take_place there inLine, List.count_append, List.count_eq_zero_of_not_mem unbroken,
    count_linesBefore (fun _ => not_mem_of_mem_lines) (Nat.le_of_lt bound), Nat.add_zero]

theorem columnNumber_place :
    columnNumber text (sizeBefore List.length number (lines text) + column) = column + 1 := by
  have unbroken : ∀ c ∈ (content.take column).reverse, (c != '\n') = true := by
    intro c inside
    rw [bne_iff_ne]
    rintro rfl
    exact not_mem_of_mem_lines (List.mem_of_getElem? there)
      (List.mem_of_mem_take (List.mem_reverse.mp inside))
  have stops : (linesBefore number (lines text)).reverse.takeWhile (· != '\n') = [] := by
    rcases startsLine_linesBefore number (lines text) with start | ⟨earlier, feed⟩
    · rw [start]
      rfl
    · rw [feed, List.reverse_append]
      rfl
  rw [columnNumber, take_place there inLine, List.reverse_append,
    List.takeWhile_append_of_pos unbroken, stops, List.append_nil, List.length_reverse,
    List.length_take_of_le inLine]

/-- A line index finds the line of a place on it. -/
theorem lineAt_place (spans : List Span) : (LineIndex.ofSpans text spans).lineAt
    (sizeBefore List.length number (lines text) + column : Nat) = number := by
  have shape := LineIndex.hasLinesOf_ofSpans text spans
  have stretch := getElem?_stretchesOf 0 (lines text) number
  rw [there, Option.map_some, Nat.zero_add] at stretch
  exact shape.lineAt_eq stretch (Int.ofNat_le.mpr (Nat.le_add_right _ _))
    (Int.ofNat_le.mpr (Nat.add_le_add_left inLine _))

end Place

theorem getElem?_starts {text content : Text} {number : Nat}
    (there : (lines text)[number]? = some content) (spans : List Span) :
    (LineIndex.ofSpans text spans).starts[number]? =
      some (sizeBefore List.length number (lines text)) := by
  have stretch := getElem?_stretchesOf 0 (lines text) number
  rw [there, Option.map_some, Nat.zero_add] at stretch
  rw [(LineIndex.hasLinesOf_ofSpans text spans).starts, List.getElem?_toArray, lineStarts_eq_map,
    List.getElem?_map, lineStretches, stretch, Option.map_some]

/-- The offset of a line and a column is a place on that line. -/
theorem offset?_eq_some_iff {text : Text} {line column : Int} {offset : Nat} :
    offset? text line column = some offset ↔
      ∃ number : Nat, ∃ content, line = number + 1 ∧ (lines text)[number]? = some content ∧
        offset = sizeBefore List.length number (lines text) +
          min (column - 1).toNat content.length := by
  rw [offset?]
  split
  · rename_i early
    refine iff_of_false (Option.some_ne_none offset).symm ?_
    rintro ⟨number, content, rfl, -⟩
    omega
  · rename_i late
    rw [Option.map_eq_some_iff]
    constructor
    · rintro ⟨content, there, rfl⟩
      exact ⟨(line - 1).toNat, content, by omega, there, rfl⟩
    · rintro ⟨number, content, rfl, there, rfl⟩
      rw [Int.add_sub_cancel, Int.toNat_natCast]
      exact ⟨content, there, rfl⟩

/-- Only a line that does not exist has no offsets. -/
theorem offset?_eq_none_iff {text : Text} {line column : Int} :
    offset? text line column = none ↔ line < 1 ∨ (text.count '\n' : Int) + 1 < line := by
  have lineCount := length_lines text
  rw [offset?]
  split
  · rename_i early
    exact iff_of_true rfl (.inl (by omega))
  · rename_i late
    rw [Option.map_eq_none_iff, List.getElem?_eq_none_iff]
    omega

/-- A line and a column have an offset unless the text has no such line. The offset stands on the line,
where a line index finds it, and does not go back when the column goes on; up to the first column it
is the start of the line. The line and the column of each offset have that offset. -/
theorem offset?_inverse_location (text : Text) :
    (∀ line column : Int, offset? text line column = none ↔
      line < 1 ∨ (text.count '\n' : Int) + 1 < line) ∧
    (∀ (line column : Int) (offset : Nat), offset? text line column = some offset →
      offset ≤ text.length ∧ ((text.take offset).count '\n' : Int) = line - 1 ∧
      (∀ further, column ≤ further →
        ∃ later, offset? text line further = some later ∧ offset ≤ later) ∧
      ∀ spans, ((LineIndex.ofSpans text spans).lineAt offset : Int) = line - 1 ∧
        (column ≤ 1 →
          (LineIndex.ofSpans text spans).starts[(line - 1).toNat]? = some offset)) ∧
    ∀ offset ≤ text.length,
      offset? text (lineNumber text offset) (columnNumber text offset) = some offset := by
  refine ⟨fun _ _ => offset?_eq_none_iff, ?_, ?_⟩
  · intro line column offset found
    obtain ⟨number, content, rfl, there, rfl⟩ := offset?_eq_some_iff.mp found
    have inLine : min (column - 1).toNat content.length ≤ content.length := Nat.min_le_right _ _
    have counted := lineNumber_place there inLine
    rw [lineNumber] at counted
    refine ⟨place_le_length there inLine, by omega, ?_, fun spans => ⟨?_, ?_⟩⟩
    · intro further more
      refine ⟨_, offset?_eq_some_iff.mpr ⟨number, content, rfl, there, rfl⟩, ?_⟩
      omega
    · rw [lineAt_place there inLine]
      omega
    · intro first
      have start : min (column - 1).toNat content.length = 0 := by omega
      rw [Int.add_sub_cancel, Int.toNat_natCast, getElem?_starts there, start, Nat.add_zero]
  · intro offset within
    obtain ⟨number, content, column, there, inLine, rfl⟩ := exists_place within
    rw [lineNumber_place there inLine, columnNumber_place there inLine]
    refine offset?_eq_some_iff.mpr ⟨number, content, rfl, there, ?_⟩
    omega

/-- A column behind the end of the second line has the offset of its line feed, and one before its
start that of the start. -/
theorem offset?_inverse_location_outside_line :
    let text := "ab\ncde\nf".toList
    (offset? text 2 99 = some 6 ∧ offset? text 2 0 = some 3) ∧
      (6 ≤ text.length ∧ ((text.take 6).count '\n' : Int) = 2 - 1) ∧
      (∀ spans, ((LineIndex.ofSpans text spans).lineAt 6 : Int) = 2 - 1 ∧
        (LineIndex.ofSpans text spans).starts[1]? = some 3) ∧
      offset? text (lineNumber text 6) (columnNumber text 6) = some 6 := by
  intro text
  obtain ⟨-, onLine, inverse⟩ := offset?_inverse_location text
  have beyond : offset? text 2 99 = some 6 := by decide
  have before : offset? text 2 0 = some 3 := by decide
  obtain ⟨within, feeds, -, indexed⟩ := onLine 2 99 6 beyond
  obtain ⟨-, -, -, starts⟩ := onLine 2 0 3 before
  exact ⟨⟨beyond, before⟩, ⟨within, feeds⟩,
    fun spans => ⟨(indexed spans).1, (starts spans).2 (by decide)⟩, inverse 6 within⟩

end KotlinHighlight.Text
