import KotlinHighlight.Proofs.Editor.Painter
import KotlinHighlight.Proofs.Highlight.Incremental

/-! # What a painter paints

A painter that is up to date paints each block by what the block takes over from the blocks before it
(`paintingOf_eq_scanPainting`), if all characters are at most U+FFFF and the mode is the scan.
-/

namespace KotlinHighlight.Editor

open Highlight (carriedInto linesShown)

/-- The format of a span, at the place of the span. -/
def Screen.range (screen : Screen) (span : Span) : FormatRange :=
  ⟨span.start, span.stop - span.start, screen.format span.category span.color⟩

/-- What a scan paints of a block, with what is open before it. -/
def scanPainting (screen : Screen) (palette : Palette) (document : Document) (block : Nat) :
    Painting where
  block
  formats := (linesShown palette (carriedInto document.plainBlocks block)
    (plainForm (document.blocks.getD block []))).map screen.range
  state := some (if block + 1 < document.blocks.length then
    .ofCategory ((carriedInto document.plainBlocks (block + 1)).map (·.category)) else .normal)

theorem Painting.ext_fields {first second : Painting} (block : first.block = second.block)
    (formats : first.formats = second.formats) (state : first.state = second.state) :
    first = second := by
  cases first
  cases second
  rw [mk.injEq]
  exact ⟨block, formats, state⟩

namespace Painter

/-- A painter paints what its index shows. -/
theorem formats_paintingOf (painter : Painter) (screen : Screen) (document : Document)
    (block : Nat) (text : Text) : (painter.paintingOf screen document block text).formats =
      ((painter.index.spansBetween (document.position block)
        (document.position block + text.length)).map Piece.shown).map screen.range := by
  rw [List.map_map]
  rfl

/-- The line that a block of a document ends with. -/
theorem exists_line_of_block {document : Document} {block : Nat} {text : Text}
    (there : document.blocks[block]? = some text) :
    ∃ line stretch, (Text.lineStretches 0 document.plainText)[line]? = some stretch ∧
      stretch.stop = document.start block + text.length ∧
      (block + 1 = document.blocks.length →
        line + 1 = (Text.lines document.plainText).length) := by
  obtain ⟨line, stretch, found, stop, last⟩ := Text.exists_line_stop
    (Text.linesBefore block document.plainBlocks ++ plainForm text)
    (Text.stopsLine_linesAfter block document.plainBlocks)
  rw [← Document.plainText_split there] at found last
  refine ⟨line, stretch, found, ?_, fun same => last ?_⟩
  · rw [stop, List.length_append, length_plainForm, Document.start_eq]
  · refine Text.linesAfter_of_last (Nat.le_of_eq ?_)
    rw [Document.plainBlocks, List.length_map, same]

/-- Where units are characters before a block, its state is that of the line that it ends with. -/
theorem exists_line_of_state {painter : Painter} {screen : Screen} {document : Document}
    (current : painter.UpToDate screen document) {block : Nat} {text : Text}
    (there : document.blocks[block]? = some text)
    (position : document.position block = document.start block) :
    ∃ line stretch, (Text.lineStretches 0 document.plainText)[line]? = some stretch ∧
      stretch.stop = document.start block + text.length ∧
      (block + 1 = document.blocks.length →
        line + 1 = (Text.lines document.plainText).length) ∧
      (painter.paintingOf screen document block text).state =
        some (.ofCategory (painter.index.endCategory line)) := by
  have shape : painter.index.HasLinesOf document.plainText := by
    rw [current.index]
    exact LineIndex.hasLinesOf_ofSpans _ _
  obtain ⟨line, stretch, found, stop, last⟩ := exists_line_of_block there
  have bounds := Text.mem_lineStretches_bounds (List.mem_of_getElem? found)
  have here : painter.index.lineAt (document.position block + text.length) = line :=
    shape.lineAt_eq found (by omega) (by omega)
  refine ⟨line, stretch, found, stop, last, ?_⟩
  rw [← here]
  rfl

/-- In a scan the index is that of the plain text in the colors of the painter. -/
theorem index_eq_indexOf {painter : Painter} {screen : Screen} {document : Document}
    (current : painter.UpToDate screen document) (scan : painter.cache.mode = .scan) :
    painter.index = Highlight.indexOf painter.cache.palette document.plainText := by
  rw [current.index, indexFor, scan, Highlight.indexOf]

section Scan

variable {painter : Painter} {screen : Screen} {document : Document}
  (current : painter.UpToDate screen document) (scan : painter.cache.mode = .scan)
  (basic : document.IsBasic) {block : Nat} {text : Text}
  (there : document.blocks[block]? = some text)
include current scan basic there

/-- The formats of a block come from the block and what is open before it. -/
theorem formats_eq_linesShown :
    (painter.paintingOf screen document block text).formats =
      (linesShown painter.cache.palette (carriedInto document.plainBlocks block)
        (plainForm text)).map screen.range := by
  have shown := Highlight.shown_eq_linesShown document.plainText_eq
    (Document.getElem?_plainBlocks there) painter.cache.palette
  rw [formats_paintingOf, index_eq_indexOf current scan, basic.position_eq, Document.start_eq,
    Text.length_linesBefore, ← length_plainForm text, shown]

/-- The state of a block that is not the last comes from what is open after it. -/
theorem state_eq_carriedInto :
    (painter.paintingOf screen document block text).state =
      some (if block + 1 < document.blocks.length then
        .ofCategory ((carriedInto document.plainBlocks (block + 1)).map (·.category))
      else .normal) := by
  obtain ⟨line, stretch, found, stop, last, state⟩ :=
    exists_line_of_state current there (basic.position_eq block)
  rw [state, index_eq_indexOf current scan]
  split
  · rename_i more
    have count : block + 1 < document.plainBlocks.length := by
      rwa [Document.plainBlocks, List.length_map]
    rw [Highlight.endCategory_eq_carriedInto document.plainText_eq
      (Document.getElem?_plainBlocks there) painter.cache.palette count found]
    rw [stop, length_plainForm, Document.start_eq, Text.length_linesBefore]
  · rename_i outside
    have valid := (List.getElem?_eq_some_iff.mp there).1
    rw [Highlight.indexOf, LineIndex.endCategory_of_last _ (last (by omega))]
    rfl

/-- A painter that is up to date paints a block by what is open before it. -/
theorem paintingOf_eq_scanPainting :
    painter.paintingOf screen document block text =
      scanPainting screen painter.cache.palette document block := by
  refine Painting.ext_fields rfl ?_ ?_
  · rw [formats_eq_linesShown current scan basic there, scanPainting, Document.getD_blocks there]
  · exact state_eq_carriedInto current scan basic there

end Scan

end Painter

end KotlinHighlight.Editor
