import KotlinHighlight.Proofs.Editor.Painting
import KotlinHighlight.Proofs.Editor.Session
import KotlinHighlight.Proofs.Highlight.Starts

/-! # Characters and units

Formats count UTF-16 units from the start of their block, but a painter counts characters from there
on, and takes the number of units before the block for a number of characters. So a full repaint puts
every format where it belongs exactly if no character beyond U+FFFF stands before the end of a span
(`Session.repaint_eq_proper_iff`).
-/

namespace KotlinHighlight

namespace Text

/-- A character has one unit or, beyond U+FFFF, two. -/
theorem length16_cons (c : Char) (rest : Text) :
    length16 (c :: rest) = (if c.toNat < 0x10000 then 1 else 2) + length16 rest := by
  rw [← List.singleton_append, length16_append]
  congr 1
  rw [length16, Units.ofText, List.flatMap_singleton, Units.ofChar]
  split
  · rfl
  · rfl

theorem length_le_length16 (text : Text) : text.length ≤ length16 text := by
  induction text with
  | nil => exact Nat.le_refl _
  | cons c rest ih =>
    rw [length16_cons, List.length_cons]
    split
    · omega
    · omega

/-- There are as many units as characters exactly if each character is one unit. -/
theorem length16_eq_length_iff (text : Text) : length16 text = text.length ↔ text.IsBasic := by
  refine ⟨fun same c member => ?_, length16_eq_length⟩
  obtain ⟨earlier, later, rfl⟩ := List.append_of_mem member
  rw [length16_append, length16_cons, List.length_append, List.length_cons] at same
  have one := length_le_length16 earlier
  have other := length_le_length16 later
  by_contra wide
  rw [if_neg wide] at same
  omega

theorem length16_take_mono (text : Text) {first last : Nat} (ordered : first ≤ last) :
    length16 (text.take first) ≤ length16 (text.take last) := by
  obtain ⟨more, rfl⟩ := Nat.exists_eq_add_of_le ordered
  rw [List.take_add, length16_append]
  exact Nat.le_add_right _ _

theorem IsBasic.take_mono {text : Text} {first last : Nat} (basic : IsBasic (text.take last))
    (ordered : first ≤ last) : IsBasic (text.take first) := fun c member =>
  basic c ((List.take_subset_take_left text ordered) member)

end Text

namespace Editor

theorem length16_plainForm (text : Text) : (plainForm text).length16 = text.length16 := by
  have narrow : ∀ c, (plainChar c).toNat < 0x10000 ↔ c.toNat < 0x10000 := by
    intro c
    rw [plainChar]
    split
    · rename_i same
      rw [same]
      decide
    · split
      · rename_i same
        have line : '\n'.toNat = 10 := rfl
        omega
      · rfl
  induction text with
  | nil => rfl
  | cons c rest ih =>
    have split : plainForm (c :: rest) = plainChar c :: plainForm rest := rfl
    rw [split, Text.length16_cons, Text.length16_cons, ih]
    simp only [narrow c]

namespace Document

/-- Before a place in a block stand the blocks before it and a part of the block. -/
theorem take_plainText {document : Document} {block : Nat} {text : Text}
    (there : document.blocks[block]? = some text) {place : Nat} (within : place ≤ text.length) :
    document.plainText.take (document.start block + place) =
      Text.linesBefore block document.plainBlocks ++ plainForm (text.take place) := by
  rw [plainText_split there, start_eq, List.append_assoc, List.take_length_add_append,
    List.take_append_of_le_length (by rwa [length_plainForm]), plainForm, plainForm, List.map_take]

/-- The units before a place in a block are those before the block and those in the block. -/
theorem length16_take_plainText {document : Document} {block : Nat} {text : Text}
    (there : document.blocks[block]? = some text) {place : Nat} (within : place ≤ text.length) :
    Text.length16 (document.plainText.take (document.start block + place)) =
      document.position block + Text.length16 (text.take place) := by
  have before : (Text.linesBefore block document.plainBlocks).length16 = document.position block := by
    rw [Text.size_linesBefore rfl rfl Text.length16_append, plainBlocks, Text.sizeBefore_map]
    exact Text.sizeBefore_congr fun text _ => length16_plainForm text
  rw [take_plainText there within, Text.length16_append, before, length16_plainForm]

/-- The parts of some spans in a block, line by line and counted in characters of the block. -/
def partsIn (document : Document) (spans : List Span) (block : Nat) : List Span :=
  let start := document.start block
  (Text.lineStretches start (plainForm (document.blocks.getD block []))).flatMap fun line =>
    spans.filterMap fun span => (span.clip? line.start line.stop).map (·.countedFrom start)

end Document

/-- The format of a part of a text, at its place in units of the text. -/
def Screen.rangeIn (screen : Screen) (text : Text) (part : Span) : FormatRange :=
  let start : Int := Text.length16 (text.take part.start.toNat)
  let stop : Int := Text.length16 (text.take part.stop.toNat)
  ⟨start, stop - start, screen.format part.category part.color⟩

/-- How a block looks if each format is where it belongs: a format for each part of a span in the
block, in units from the start of the block, and the state for the line feed after the block. -/
def properPainting (screen : Screen) (spans : List Span) (document : Document) (block : Nat) :
    Painting where
  block
  formats := (document.partsIn spans block).map
    (screen.rangeIn (document.blocks.getD block []))
  state :=
    let stop : Int := document.start block + (document.blocks.getD block []).length
    some (.ofCategory (if block + 1 < document.blocks.length then
      (spans.find? (·.covers stop)).map (·.category) else none))

section Block

variable {document : Document} {block : Nat} {text : Text}
  (there : document.blocks[block]? = some text)
include there

/-- Up to a place in a block there are as many units as characters or more, and as many exactly if
each of those characters is one unit. -/
theorem Document.units_le {place : Nat} (within : place ≤ text.length) :
    document.start block + place ≤ document.position block + Text.length16 (text.take place) ∧
      (document.position block + Text.length16 (text.take place) = document.start block + place ↔
        Text.IsBasic (document.plainText.take (document.start block + place))) := by
  have length : (document.plainText.take (document.start block + place)).length =
      document.start block + place := by
    rw [Document.take_plainText there within, List.length_append, length_plainForm,
      List.length_take_of_le within, Document.start_eq]
  have units := Document.length16_take_plainText there within
  have least := Text.length_le_length16 (document.plainText.take (document.start block + place))
  have same := Text.length16_eq_length_iff (document.plainText.take (document.start block + place))
  rw [length, units] at least same
  exact ⟨least, same⟩

theorem Document.mem_partsIn {spans : List Span} {part : Span} :
    part ∈ document.partsIn spans block ↔
      ∃ line ∈ Text.lineStretches (document.start block) (plainForm text), ∃ span ∈ spans,
        (span.clip? line.start line.stop).map (·.countedFrom (document.start block)) = some part := by
  simp only [Document.partsIn, Document.getD_blocks there, List.mem_flatMap, List.mem_filterMap]

/-- A part of a span in a block is within the block, and does not reach further than the span. -/
theorem Document.mem_partsIn_bounds {spans : List Span} {part : Span}
    (member : part ∈ document.partsIn spans block) :
    0 ≤ part.start ∧ part.start < part.stop ∧ part.stop ≤ text.length ∧
      ∃ span ∈ spans, document.start block + part.stop ≤ span.stop := by
  obtain ⟨line, inBlock, span, marked, found⟩ := (Document.mem_partsIn there).mp member
  have bounds := Text.mem_lineStretches_bounds inBlock
  rw [length_plainForm] at bounds
  obtain ⟨clipped, clips, rfl⟩ := Option.map_eq_some_iff.mp found
  obtain ⟨meet, same⟩ := Option.ite_none_right_eq_some.mp clips
  obtain rfl := Option.some.inj same
  simp only [Span.countedFrom] at meet ⊢
  exact ⟨by omega, by omega, by omega, span, marked, by omega⟩

/-- A character of a block that a span covers is within a part of the span. -/
theorem Document.exists_partsIn {spans : List Span} {span : Span} (marked : span ∈ spans)
    {place : Nat} (inside : place < text.length)
    (starts : span.start ≤ document.start block + place)
    (stops : document.start block + place < span.stop)
    (noFeed : document.plainText[document.start block + place]?.any (· != '\n') = true) :
    ∃ part ∈ document.partsIn spans block, place < part.stop := by
  have same : document.plainText[document.start block + place]? = (plainForm text)[place]? := by
    rw [Document.plainText_eq, Document.start_eq, Text.length_linesBefore]
    exact Text.getElem?_joinLines (Document.getElem?_plainBlocks there)
      (by rwa [length_plainForm])
  rw [same] at noFeed
  obtain ⟨line, inText, first, last⟩ := Text.exists_line_iff.mpr noFeed
  have moved := Text.stretchesOf_add 0 (document.start block) (Text.lines (plainForm text))
  rw [Nat.zero_add] at moved
  have inBlock : ⟨line.start + document.start block, line.stop + document.start block⟩ ∈
      Text.lineStretches (document.start block) (plainForm text) := by
    rw [Text.lineStretches, moved]
    exact List.mem_map_of_mem inText
  have touches : max span.start (line.start + document.start block : Nat) <
      min span.stop (line.stop + document.start block : Nat) := by omega
  have part : span.clip? (line.start + document.start block : Nat)
      (line.stop + document.start block : Nat) = some _ := if_pos touches
  refine ⟨_, (Document.mem_partsIn there).mpr
    ⟨_, inBlock, span, marked, congrArg (Option.map _) part⟩, ?_⟩
  simp only [Span.countedFrom]
  omega

end Block

namespace Painter

def spansOf (painter : Painter) (document : Document) : List Span :=
  Highlight.spans painter.cache.mode painter.cache.palette document.plainText

section Current

variable {painter : Painter} {screen : Screen} {document : Document}
  (current : painter.UpToDate screen document) {block : Nat} {text : Text}
  (there : document.blocks[block]? = some text)
include current there

/-- Where units are characters before a block, its formats are those of the parts of the spans. -/
theorem formats_eq_partsIn
    (position : document.position block = document.start block) :
    (painter.paintingOf screen document block text).formats =
      (document.partsIn (painter.spansOf document) block).map screen.range := by
  have shown := LineIndex.shown_spansBetween (Text.startsLine_linesBefore block document.plainBlocks)
    (Text.stopsLine_linesAfter block document.plainBlocks) (plainForm text)
    (painter.spansOf document)
  rw [← Document.plainText_split there, ← Document.start_eq, length_plainForm] at shown
  rw [formats_paintingOf, position, Document.partsIn, Document.getD_blocks there, ← shown,
    current.index]
  rfl

/-- Where units are characters before a block, its state is that of the line feed after it. -/
theorem state_eq_covers
    (position : document.position block = document.start block) :
    (painter.paintingOf screen document block text).state =
      some (.ofCategory (if block + 1 < document.blocks.length then
        ((painter.spansOf document).find? (·.covers (document.start block + text.length))).map
          (·.category) else none)) := by
  have index : painter.index = .ofSpans document.plainText (painter.spansOf document) :=
    current.index
  obtain ⟨line, stretch, found, stop, last, state⟩ :=
    exists_line_of_state current there position
  rw [state, index]
  split
  · rename_i more
    have count : block + 1 < document.plainBlocks.length := by
      rwa [Document.plainBlocks, List.length_map]
    obtain ⟨later, feed⟩ := Text.exists_linesAfter_eq count
    have split := Document.plainText_split there
    rw [feed] at split
    have length : (Text.linesBefore block document.plainBlocks ++ plainForm text).length =
        document.start block + text.length := by
      rw [List.length_append, length_plainForm, Document.start_eq]
    rw [LineIndex.endCategory_of_feed split _ found (stop.trans length.symm), length,
      Int.natCast_add]
  · rename_i outside
    have valid := (List.getElem?_eq_some_iff.mp there).1
    rw [LineIndex.endCategory_of_last _ (last (by omega))]

end Current

/-- Up to a place in a block that a basic text ends at, units are characters. -/
theorem position_eq_of_isBasic {document : Document} {block : Nat} {text : Text}
    (there : document.blocks[block]? = some text) {place : Nat} (within : place ≤ text.length)
    (basic : Text.IsBasic (document.plainText.take (document.start block + place))) :
    document.position block = document.start block ∧ Text.length16 (text.take place) = place := by
  have whole := (Document.units_le there within).2.mpr basic
  have before := (Document.units_le there (Nat.zero_le text.length)).1
  have inside := Text.length_le_length16 (text.take place)
  rw [List.length_take_of_le within] at inside
  have zero : Text.length16 (text.take 0) = 0 := rfl
  omega

section Proper

variable {painter : Painter} {screen : Screen} {document : Document}
  (current : painter.UpToDate screen document) {block : Nat} {text : Text}
  (there : document.blocks[block]? = some text)
include current there

/-- Where units are characters up to the end of each span and before a block, the block looks as it
should. -/
theorem paintingOf_eq_proper_of_basic
    (basic : ∀ span ∈ painter.spansOf document,
      Text.IsBasic (document.plainText.take span.stop.toNat))
    (position : document.position block = document.start block) :
    painter.paintingOf screen document block text =
      properPainting screen (painter.spansOf document) document block := by
  refine Painting.ext_fields rfl ?_ ?_
  · rw [formats_eq_partsIn current there position, properPainting,
      Document.getD_blocks there]
    apply List.map_congr_left
    intro part member
    obtain ⟨starts, forward, stops, span, marked, reach⟩ := Document.mem_partsIn_bounds there member
    have units : ∀ place : Int, 0 ≤ place → place ≤ part.stop →
        (Text.length16 (text.take place.toNat) : Int) = place := by
      intro place positive upTo
      have narrow := (basic span marked).take_mono
        (show document.start block + place.toNat ≤ span.stop.toNat by omega)
      obtain ⟨-, same⟩ := position_eq_of_isBasic there (by omega) narrow
      omega
    rw [Screen.range, Screen.rangeIn, units _ starts (by omega), units _ (by omega) (by omega)]
  · rw [state_eq_covers current there position, properPainting,
      Document.getD_blocks there]

/-- Behind all spans a block looks as it should: nothing is shown there. -/
theorem paintingOf_eq_proper_of_le
    (before : ∀ span ∈ painter.spansOf document, span.stop ≤ document.start block) :
    painter.paintingOf screen document block text =
      properPainting screen (painter.spansOf document) document block := by
  have least := (Document.units_le there (Nat.zero_le text.length)).1
  have zero : Text.length16 (text.take 0) = 0 := rfl
  have further : ∀ count : Nat, ∀ span ∈ painter.spansOf document,
      span.stop ≤ document.position block + count := by
    intro count span marked
    have bound := before span marked
    omega
  have index : painter.index = .ofSpans document.plainText (painter.spansOf document) :=
    current.index
  refine Painting.ext_fields rfl ?_ ?_
  · have noPart : document.partsIn (painter.spansOf document) block = [] := by
      rw [List.eq_nil_iff_forall_not_mem]
      intro part member
      obtain ⟨starts, forward, -, span, marked, reach⟩ := Document.mem_partsIn_bounds there member
      have bound := before span marked
      omega
    have shown := LineIndex.spansBetween_eq_nil_of_le document.plainText (further 0)
      (document.position block + text.length)
    rw [Int.natCast_zero, Int.add_zero, ← index] at shown
    rw [formats_paintingOf, shown, properPainting, noPart]
    rfl
  · have uncovered : (painter.spansOf document).find?
        (·.covers (document.start block + text.length)) = Option.none := by
      rw [List.find?_eq_none]
      intro span marked covers
      have bound := before span marked
      rw [Span.covers_iff] at covers
      omega
    have ending := LineIndex.endCategory_lineAt_of_le document.plainText
      (further text.length)
    rw [← index] at ending
    change some (BlockState.ofCategory (painter.index.endCategory
      (painter.index.lineAt (document.position block + text.length)))) = _
    rw [ending, properPainting, Document.getD_blocks there]
    dsimp only
    rw [uncovered, Option.map_none, ite_self]

/-- Where each character before the end of a span is one unit, each block looks as it should. -/
theorem paintingOf_eq_proper
    (basic : ∀ span ∈ painter.spansOf document,
      Text.IsBasic (document.plainText.take span.stop.toNat)) :
    painter.paintingOf screen document block text =
      properPainting screen (painter.spansOf document) document block := by
  by_cases early : Text.IsBasic (document.plainText.take (document.start block + 0))
  · obtain ⟨position, -⟩ := position_eq_of_isBasic there (Nat.zero_le text.length) early
    exact paintingOf_eq_proper_of_basic current there basic position
  · apply paintingOf_eq_proper_of_le current there
    intro span marked
    by_contra beyond
    exact early ((basic span marked).take_mono (by omega))

end Proper

/-- Whether a span covers a place other than a line feed up to which units are not characters. -/
structure Astray (spans : List Span) (text : Text) (place : Nat) : Prop where
  covered : ∃ span ∈ spans, span.start ≤ place ∧ place < span.stop
  noFeed : text[place]?.any (· != '\n') = true
  wide : ¬Text.IsBasic (text.take (place + 1))

/-- A wide character before the end of a span leads a place astray: its own if the span covers it,
and else the one that the span starts at. -/
theorem exists_astray (mode : Containment) (palette : Palette) {text : Text} {span : Span}
    (marked : span ∈ Highlight.spans mode palette text)
    (wide : ¬Text.IsBasic (text.take span.stop.toNat)) :
    ∃ place, Astray (Highlight.spans mode palette text) text place := by
  obtain ⟨positive, forward, within⟩ := Highlight.within_of_mem_spans marked
  simp only [Text.IsBasic, not_forall] at wide
  obtain ⟨c, member, beyond⟩ := wide
  obtain ⟨place, early, here⟩ := List.mem_take_iff_getElem.mp member
  have there : text[place]? = Option.some c := by
    rw [List.getElem?_eq_getElem (by omega), here]
  have wideAfter : ∀ later, place ≤ later → ¬Text.IsBasic (text.take (later + 1)) := by
    intro later after basic
    refine beyond (basic c ?_)
    exact List.mem_take_iff_getElem.mpr ⟨place, by omega, here⟩
  by_cases inside : span.start ≤ place
  · refine ⟨place, ⟨span, marked, inside, by omega⟩, ?_, wideAfter place (Nat.le_refl _)⟩
    rw [there, Option.any_some, bne_iff_ne]
    rintro rfl
    exact beyond (by decide)
  · exact ⟨span.start.toNat, ⟨span, marked, by omega, by omega⟩,
      Highlight.head_of_mem_spans marked, wideAfter _ (by omega)⟩

/-- The block that a character of a document stands in. -/
theorem exists_block {document : Document} {place : Nat}
    (noFeed : document.plainText[place]?.any (· != '\n') = true) :
    ∃ block text, document.blocks[block]? = some text ∧ ∃ inside < text.length,
      place = document.start block + inside := by
  rw [Document.plainText_eq] at noFeed
  obtain ⟨block, content, found, starts, stops⟩ := Text.exists_text_of_joinLines noFeed
  rw [← Text.length_linesBefore, ← Document.start_eq] at starts stops
  rw [Document.plainBlocks, List.getElem?_map] at found
  obtain ⟨text, there, rfl⟩ := Option.map_eq_some_iff.mp found
  rw [length_plainForm] at stops
  exact ⟨block, text, there, place - document.start block, by omega, by omega⟩

/-- If every block looks as it should, then a place that is led astray leads on to a later one: in
units the format that should be there ends further on than any character before it. -/
theorem Astray.exists_further {painter : Painter} {screen : Screen} {document : Document}
    (current : painter.UpToDate screen document)
    (proper : ∀ block text, document.blocks[block]? = some text →
      painter.paintingOf screen document block text =
        properPainting screen (painter.spansOf document) document block) {place : Nat}
    (astray : Astray (painter.spansOf document) document.plainText place) :
    ∃ further, place < further ∧ Astray (painter.spansOf document) document.plainText further := by
  obtain ⟨⟨span, marked, starts, stops⟩, noFeed, wide⟩ := astray
  obtain ⟨block, text, there, inside, within, rfl⟩ := exists_block noFeed
  obtain ⟨part, inBlock, reach⟩ :=
    Document.exists_partsIn there marked within starts stops noFeed
  have formats := congrArg Painting.formats (proper block text there)
  have index : painter.index = .ofSpans document.plainText (painter.spansOf document) :=
    current.index
  rw [formats_paintingOf, index, properPainting, Document.getD_blocks there] at formats
  dsimp only at formats
  have painted : screen.rangeIn text part ∈
      (document.partsIn (painter.spansOf document) block).map (screen.rangeIn text) :=
    List.mem_map_of_mem inBlock
  rw [← formats] at painted
  obtain ⟨_, inShown, same⟩ := List.mem_map.mp painted
  obtain ⟨piece, inIndex, rfl⟩ := List.mem_map.mp inShown
  obtain ⟨other, marked', further, stop, -, starts', stops', noFeed'⟩ :=
    LineIndex.exists_place_of_mem_spansBetween inIndex
  -- The painted format has the same end as the one that should be there, counted in units.
  simp only [Screen.range, Screen.rangeIn, Piece.shown, FormatRange.mk.injEq] at same
  obtain ⟨start, size, -⟩ := same
  obtain ⟨least, narrow⟩ := Document.units_le there (show inside + 1 ≤ text.length from within)
  have different := mt narrow.mp wide
  have reached := Text.length16_take_mono text (show inside + 1 ≤ part.stop.toNat by omega)
  have later : document.start block + inside < further := by omega
  exact ⟨further, later, ⟨other, marked', starts', stops'⟩, noFeed',
    fun basic => wide (basic.take_mono (by omega))⟩

/-- A painter that is up to date puts every format where it belongs exactly if no character beyond
U+FFFF stands before the end of a span. -/
theorem paintingsOf_eq_proper_iff {painter : Painter} {screen : Screen} {document : Document}
    (current : painter.UpToDate screen document) :
    painter.paintingsOf screen document (List.range document.blocks.length) =
        (List.range document.blocks.length).map
          (properPainting screen (painter.spansOf document) document) ↔
      ∀ span ∈ painter.spansOf document,
        Text.IsBasic (document.plainText.take span.stop.toNat) := by
  rw [paintingsOf, List.map_inj_left]
  constructor
  · intro same span marked
    have proper : ∀ block text, document.blocks[block]? = some text →
        painter.paintingOf screen document block text =
          properPainting screen (painter.spansOf document) document block := by
      intro block text there
      have painted := same block (List.mem_range.mpr (List.getElem?_eq_some_iff.mp there).1)
      rwa [Document.getD_blocks there] at painted
    by_contra wide
    obtain ⟨first, astray⟩ := exists_astray _ _ marked wide
    have unbounded : ∀ count, ∃ place, count ≤ place ∧
        Astray (painter.spansOf document) document.plainText place := by
      intro count
      induction count with
      | zero => exact ⟨first, Nat.zero_le _, astray⟩
      | succ count ih =>
        obtain ⟨place, upTo, astray⟩ := ih
        obtain ⟨further, later, astray'⟩ := astray.exists_further current proper
        exact ⟨further, by omega, astray'⟩
    obtain ⟨place, beyond, astray⟩ := unbounded document.plainText.length
    have noFeed := astray.noFeed
    rw [List.getElem?_eq_none beyond] at noFeed
    exact Bool.false_ne_true noFeed
  · intro basic block member
    exact paintingOf_eq_proper current
      (Document.getElem?_blocks (List.mem_range.mp member)) basic

end Painter

namespace Session

/-- A full repaint puts every format where it belongs exactly if no character beyond U+FFFF stands
before the end of a span. -/
theorem rehighlight_eq_proper_iff (surroundings : Surroundings) {session : Session}
    {painter : Painter} (known : session.painter = some painter) (coherent : painter.Coherent surroundings.screen)
    (attached : session.attached = true) :
    (session.step surroundings .rehighlight).2.painted =
        (List.range session.document.blocks.length).map
          (properPainting surroundings.screen (painter.spansOf session.document)
            session.document) ↔
      ∀ span ∈ painter.spansOf session.document,
        Text.IsBasic (session.document.plainText.take span.stop.toNat) := by
  obtain ⟨painted, -⟩ := step_rehighlight surroundings known coherent attached
  obtain ⟨current, same⟩ := Painter.refresh_upToDate coherent session.document
  have spans : (painter.refresh session.document).1.spansOf session.document =
      painter.spansOf session.document := by
    rw [Painter.spansOf, Painter.spansOf, same.mode, same.palette]
  have correct := Painter.paintingsOf_eq_proper_iff current
  rw [spans] at correct
  rw [painted, correct]

theorem exists_new (theme : Option Theme) (mode : Containment) (debug : Bool) :
    ∃ painter effects, Painter.new theme (some mode.name) debug = .ok (painter, effects) ∧
      painter.cache.mode = mode ∧ painter.cache.palette = Theme.palette (theme.getD []) := by
  have palette : Theme.palette ((theme.bind Cache.themeOf).getD []) =
      Theme.palette (theme.getD []) := by
    cases theme with
    | none => rfl
    | some theme =>
      cases theme with
      | nil => rfl
      | cons wish wishes => rfl
  cases mode with
  | scan => exact ⟨_, _, rfl, rfl, palette⟩
  | heuristic => exact ⟨_, _, rfl, rfl, palette⟩

theorem exists_constructed (surroundings : Surroundings) (theme : Option Theme)
    (mode : Containment) (debug : Bool) (blocks : List Text) :
    ∃ painter, (Session.run surroundings {}
        [.construct theme (some mode.name) debug, .replace blocks]).1 =
          { document := ⟨blocks⟩, painter := some painter, attached := true } ∧
      painter.Coherent surroundings.screen ∧
      painter.spansOf = fun document =>
        Highlight.spans mode (Theme.palette (theme.getD [])) document.plainText := by
  obtain ⟨painter, effects, made, named, palette⟩ := exists_new theme mode debug
  refine ⟨painter, ?_, Painter.coherent_of_new made _, ?_⟩
  · simp only [run, step, start, made]
  · funext document
    rw [Painter.spansOf, named, palette]

/-- Construct a painter with any theme and in either mode, and repaint any document. Every format is
where it belongs, and every state is that of the line feed after the block, exactly if no character
beyond U+FFFF stands before the end of a span. -/
theorem repaint_eq_proper_iff (surroundings : Surroundings) (theme : Option Theme)
    (mode : Containment) (debug : Bool) (blocks : List Text) :
    let document : Document := ⟨blocks⟩
    let spans := Highlight.spans mode (Theme.palette (theme.getD [])) document.plainText
    let session := (Session.run surroundings {}
      [.construct theme (some mode.name) debug, .replace blocks]).1
    (session.step surroundings .rehighlight).2.painted = (List.range blocks.length).map
        (properPainting surroundings.screen spans document) ↔
      ∀ span ∈ spans, Text.IsBasic (document.plainText.take span.stop.toNat) := by
  obtain ⟨painter, reached, coherent, shown⟩ :=
    exists_constructed surroundings theme mode debug blocks
  have correct := rehighlight_eq_proper_iff surroundings (congrArg Session.painter reached) coherent
    (congrArg Session.attached reached)
  rw [shown, congrArg Session.document reached] at correct
  exact correct

/-- Behind a character of two units a line comment is painted without its last character. -/
theorem repaint_ne_proper_after_wide :
    let surroundings : Surroundings := ⟨[], ⟨fun _ => true⟩⟩
    let document : Document := ⟨[['😀'], ['/', '/']]⟩
    let session := (Session.run surroundings {}
      [.construct none (some "scan") false, .replace document.blocks]).1
    (session.step surroundings .rehighlight).2.painted ≠ (List.range 2).map
      (properPainting surroundings.screen (Highlight.spans .scan .default document.plainText)
        document) := by
  intro surroundings document session proper
  obtain ⟨painter, reached, coherent, shown⟩ :=
    exists_constructed surroundings none .scan false document.blocks
  have correct := rehighlight_eq_proper_iff surroundings (congrArg Session.painter reached) coherent
    (congrArg Session.attached reached)
  rw [shown, congrArg Session.document reached] at correct
  have comment : Span.mk 2 4 .comment (Palette.default.color .comment) ∈
      Highlight.spans .scan .default document.plainText :=
    List.mem_append_left _ (Highlight.mem_regionSpans_iff.mpr
      ⟨⟨2, 4, .lineComment⟩, by decide, rfl⟩)
  have basic : Text.IsBasic ['😀', '\n', '/', '/'] := correct.mp proper _ comment
  exact absurd basic (by decide)

end Session

end Editor

end KotlinHighlight
