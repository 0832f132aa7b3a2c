import KotlinHighlight.Editor.Painter
import KotlinHighlight.Proofs.Editor.Document

/-! # When a painter knows its document

A painter is coherent if its index is that of the text it remembers and the formats it keeps are the
ones it would make, and it is up to date with a document if that text is the plain text of the
document. A coherent painter is given the list of spans that it has just if it remembers the text
(`Coherent.edition_eq_iff`). Reading a document brings it up to date (`refresh_upToDate`), and so does
painting the one block that was changed since (`freshen_setBlock`).
-/

namespace KotlinHighlight.Editor

namespace FormatMemo

/-- Whether the formats that were made are those that would be made anew. -/
def Agrees (memo : FormatMemo) (screen : Screen) : Prop :=
  ∀ category color format, memo.get? (category, color) = some format →
    format = screen.format category color

variable {memo : FormatMemo} {screen : Screen}

theorem agrees_nil (screen : Screen) : Agrees [] screen :=
  fun _ _ _ known => absurd known nofun

theorem Agrees.put (agrees : memo.Agrees screen) (category : Category) (color : String) :
    FormatMemo.Agrees (Assoc.put (category, color) (screen.format category color) memo) screen := by
  intro other shade format known
  by_cases same : (other, shade) = (category, color)
  · obtain ⟨rfl, rfl⟩ := Prod.mk.inj same
    rw [Assoc.get?_put_self, Option.some.injEq] at known
    exact known.symm
  · rw [Assoc.get?_put_of_ne same] at known
    exact agrees other shade format known

/-- To keep formats does not change what they look like. -/
theorem Agrees.format (agrees : memo.Agrees screen) (category : Category) (color : String) :
    (memo.format screen category color).1 = screen.format category color ∧
      (memo.format screen category color).2.Agrees screen := by
  rw [FormatMemo.format]
  split
  · rename_i known here
    exact ⟨agrees _ _ _ here, agrees⟩
  · exact ⟨rfl, agrees.put category color⟩

/-- Pieces take the formats that would be made anew for them. -/
theorem Agrees.ranges (agrees : memo.Agrees screen) (pieces : List Piece) :
    (memo.ranges screen pieces).1 = pieces.map (fun piece =>
        ⟨piece.start, piece.stop - piece.start,
          screen.format piece.span.category piece.span.color⟩) ∧
      (memo.ranges screen pieces).2.Agrees screen := by
  induction pieces generalizing memo with
  | nil => exact ⟨rfl, agrees⟩
  | cons piece pieces ih =>
    obtain ⟨format, known⟩ := agrees.format piece.span.category piece.span.color
    obtain ⟨ranges, later⟩ := ih known
    rw [FormatMemo.ranges, List.map_cons, ← format, ← ranges]
    exact ⟨rfl, later⟩

end FormatMemo

namespace Painter

/-- The index of a text under the settings of a painter. -/
def indexFor (painter : Painter) (text : Text) : LineIndex :=
  LineIndex.ofSpans text (Highlight.spans painter.cache.mode painter.cache.palette text)

/-- Whether what a painter keeps is right: its index is that of the text that it remembers, and made of
the list of spans that the cache has for it. No list that it knows is later than the one that the cache
has, and its formats are those that it would make. -/
structure Coherent (painter : Painter) (screen : Screen) : Prop where
  indexed : ∀ text, painter.cache.text = some text → painter.index = painter.indexFor text
  held : painter.cache.text.isSome = true → painter.edition = some painter.cache.edition
  bounded : ∀ edition, painter.edition = some edition → edition ≤ painter.cache.edition
  formats : painter.formats.Agrees screen

theorem cache_refresh (painter : Painter) (document : Document) :
    (painter.refresh document).1.cache = (painter.cache.ask (some document.plainText)).2 := by
  rw [refresh]
  dsimp only
  split
  · rfl
  · rfl

/-- The cache gives a coherent painter the list of spans that it has if it remembers the text, and
another list otherwise. -/
theorem Coherent.edition_eq_iff {painter : Painter} {screen : Screen}
    (coherent : painter.Coherent screen) (text : Text) :
    painter.edition = some (painter.cache.ask (some text)).1.edition ↔
      painter.cache.text = some text := by
  by_cases remembered : painter.cache.text = some text
  · rw [Cache.ask_of_text_eq remembered]
    exact iff_of_true (coherent.held (by rw [remembered]; rfl)) remembered
  · rw [Cache.ask_of_text_ne remembered]
    exact iff_of_false (fun same => Nat.not_succ_le_self _ (coherent.bounded _ same)) remembered

/-- Nothing but the reading changes when the text is remembered. -/
theorem Coherent.refresh_of_cached {painter : Painter} {screen : Screen}
    (coherent : painter.Coherent screen) {document : Document}
    (cached : painter.cache.text = some document.plainText) :
    painter.refresh document =
      ({ painter with
          cache := { painter.cache with hits := painter.cache.hits + 1 }
          reading := some ⟨document.plainText, document.characterCount⟩
          stale := false }, {}) := by
  have same := (coherent.edition_eq_iff document.plainText).mpr cached
  rw [Cache.ask_of_text_eq cached] at same
  rw [refresh, Cache.ask_of_text_eq cached]
  exact if_pos same

/-- Whether the last reading of a painter is what a document is like now. -/
structure UpToDate (painter : Painter) (screen : Screen) (document : Document) : Prop
    extends painter.Coherent screen where
  cached : painter.cache.text = some document.plainText
  reading : painter.reading = some ⟨document.plainText, document.characterCount⟩
  trusted : painter.stale = false

theorem UpToDate.index {painter : Painter} {screen : Screen} {document : Document}
    (current : painter.UpToDate screen document) :
    painter.index = painter.indexFor document.plainText :=
  current.indexed _ current.cached

/-- What a painter paints of a block by its last reading, if it makes every format anew. -/
def paintingOf (painter : Painter) (screen : Screen) (document : Document) (block : Nat)
    (text : Text) : Painting :=
  let start : Int := document.position block
  let stop := start + text.length
  { block
    formats := (painter.index.spansBetween start stop).map fun piece =>
      ⟨piece.start, piece.stop - piece.start, screen.format piece.span.category piece.span.color⟩
    state := some (.ofCategory (painter.index.endCategory (painter.index.lineAt stop))) }

structure SameSettings (first second : Painter) : Prop where
  theme : first.cache.theme = second.cache.theme
  mode : first.cache.mode = second.cache.mode

theorem SameSettings.refl (painter : Painter) : painter.SameSettings painter :=
  ⟨rfl, rfl⟩

theorem SameSettings.trans {first second third : Painter} (one : first.SameSettings second)
    (other : second.SameSettings third) : first.SameSettings third :=
  ⟨one.theme.trans other.theme, one.mode.trans other.mode⟩

theorem SameSettings.symm {first second : Painter} (same : first.SameSettings second) :
    second.SameSettings first :=
  ⟨same.theme.symm, same.mode.symm⟩

theorem SameSettings.palette {first second : Painter} (same : first.SameSettings second) :
    first.cache.palette = second.cache.palette := by
  rw [Cache.palette, Cache.palette, same.theme]

theorem Coherent.distrust {painter : Painter} {screen : Screen}
    (coherent : painter.Coherent screen) : painter.distrust.Coherent screen :=
  ⟨coherent.indexed, coherent.held, coherent.bounded, coherent.formats⟩

/-- Reading a document brings a coherent painter up to date and leaves its settings. -/
theorem refresh_upToDate {painter : Painter} {screen : Screen} (coherent : painter.Coherent screen)
    (document : Document) : (painter.refresh document).1.UpToDate screen document ∧
      (painter.refresh document).1.SameSettings painter := by
  by_cases cached : painter.cache.text = some document.plainText
  · rw [coherent.refresh_of_cached cached]
    exact ⟨⟨⟨coherent.indexed, coherent.held, coherent.bounded, coherent.formats⟩, cached, rfl, rfl⟩,
      rfl, rfl⟩
  · have other := mt (coherent.edition_eq_iff document.plainText).mp cached
    rw [Cache.ask_of_text_ne cached] at other
    simp only [refresh, Cache.ask_of_text_ne cached, if_neg other]
    refine ⟨⟨⟨fun text remembered => ?_, fun _ => rfl, ?_, coherent.formats⟩, rfl, rfl, rfl⟩, rfl, rfl⟩
    · obtain rfl := Option.some.inj remembered
      rfl
    · rintro edition ⟨⟩
      exact Nat.le_refl _

/-- The painter that paints a block: it reads the document first if need be. -/
def freshen (painter : Painter) (document : Document) (block : Nat) : Painter :=
  if painter.isStale document (document.position block) (document.blocks.getD block []) then
    (painter.refresh document).1
  else painter

theorem paint_eq (painter : Painter) (screen : Screen) (document : Document) (block : Nat) :
    let text := document.blocks.getD block []
    let painted := (painter.freshen document block).paintAsRead screen document block text
    (painter.paint screen document block).1 = painted.1 ∧
      (painter.paint screen document block).2.1 = painted.2 := by
  rw [paint, freshen]
  dsimp only
  split
  · exact ⟨rfl, rfl⟩
  · exact ⟨rfl, rfl⟩

/-- To paint a block leaves a painter as it is, but for the formats that it keeps. -/
theorem Coherent.paintAsRead {painter : Painter} {screen : Screen}
    (coherent : painter.Coherent screen) (document : Document) (block : Nat) (text : Text) :
    let painted := painter.paintAsRead screen document block text
    painted.1 = painter.paintingOf screen document block text ∧ painted.2.Coherent screen ∧
      painted.2.SameSettings painter := by
  obtain ⟨ranges, later⟩ := coherent.formats.ranges (painter.index.spansBetween
    (document.position block) (document.position block + text.length))
  refine ⟨?_, ⟨coherent.indexed, coherent.held, coherent.bounded, later⟩, rfl, rfl⟩
  rw [Painter.paintAsRead, paintingOf, ← ranges]

/-- A painter that is up to date stays so when it paints a block, of whatever document. -/
theorem UpToDate.paintAsRead {painter : Painter} {screen : Screen} {document : Document}
    (current : painter.UpToDate screen document) (other : Document) (block : Nat) (text : Text) :
    (painter.paintAsRead screen other block text).2.UpToDate screen document :=
  ⟨(current.toCoherent.paintAsRead other block text).2.1, current.cached, current.reading,
    current.trusted⟩

/-- A painter that is up to date stays so. -/
theorem freshen_upToDate {painter : Painter} {screen : Screen} {document : Document}
    (current : painter.UpToDate screen document) (block : Nat) :
    (painter.freshen document block).UpToDate screen document ∧
      (painter.freshen document block).SameSettings painter := by
  rw [freshen]
  split
  · exact refresh_upToDate current.toCoherent document
  · exact ⟨current, .refl painter⟩

/-- A painter that distrusts its reading relies on it for no block. -/
theorem isStale_distrust (painter : Painter) (document : Document) (start : Nat) (block : Text) :
    painter.distrust.isStale document start block = true := by
  rw [isStale]
  cases painter.distrust.reading with
  | none => rfl
  | some reading => rfl

/-- So it reads the document. -/
theorem freshen_distrust {painter : Painter} {screen : Screen} (coherent : painter.Coherent screen)
    (document : Document) (block : Nat) :
    (painter.distrust.freshen document block).UpToDate screen document ∧
      (painter.distrust.freshen document block).SameSettings painter := by
  obtain ⟨current, same⟩ := refresh_upToDate coherent.distrust document
  rw [freshen, if_pos (painter.isStale_distrust document _ _)]
  exact ⟨current, same.theme, same.mode⟩

theorem freshen_coherent {painter : Painter} {screen : Screen} (coherent : painter.Coherent screen)
    (document : Document) (block : Nat) : (painter.freshen document block).Coherent screen ∧
      (painter.freshen document block).SameSettings painter := by
  rw [freshen]
  split
  · obtain ⟨current, same⟩ := refresh_upToDate coherent document
    exact ⟨current.toCoherent, same⟩
  · exact ⟨coherent, .refl painter⟩

/-- A painter that is up to date is so for each document with the same plain text. -/
theorem UpToDate.of_plainText_eq {painter : Painter} {screen : Screen} {document other : Document}
    (current : painter.UpToDate screen document) (basic : document.IsBasic) (basic' : other.IsBasic)
    (same : other.plainText = document.plainText) : painter.UpToDate screen other where
  toCoherent := current.toCoherent
  cached := by rw [same, current.cached]
  reading := by
    rw [Document.characterCount_eq basic', same, ← Document.characterCount_eq basic,
      current.reading]
  trusted := current.trusted

/-- If a block stands where it stood in the plain text, and the document has as many units as
before, then another text in this block alone has changed nothing. -/
theorem plainText_eq_of_not_stale {painter : Painter} {document : Document}
    (reading : painter.reading = some ⟨document.plainText, document.characterCount⟩)
    (basic : document.IsBasic) {block : Nat} (valid : block < document.blocks.length) {text : Text}
    (basicText : Text.IsBasic text)
    (fresh : painter.isStale (document.setBlock block text)
      ((document.setBlock block text).position block) text = false) :
    (document.setBlock block text).plainText = document.plainText ∧
      (document.setBlock block text).characterCount = document.characterCount := by
  have basic' := Document.isBasic_setBlock basic block basicText
  have before := Document.plainText_split (List.getElem?_eq_getElem valid)
  have after := Document.plainText_setBlock valid text
  have start : (document.setBlock block text).position block =
      (Text.linesBefore block document.plainBlocks).length := by
    rw [basic'.position_eq,
      Document.start_eq, Document.plainBlocks_setBlock, Text.linesBefore_set (Nat.le_refl _)]
  simp only [isStale, reading, Bool.or_eq_false_iff, bne_eq_false_iff_eq] at fresh
  obtain ⟨⟨-, count⟩, slice⟩ := fresh
  have size : document.blocks[block].length = text.length := by
    rw [Document.characterCount_eq basic', Document.characterCount_eq basic, before, after] at count
    simp only [List.length_append, length_plainForm] at count
    omega
  rw [start, before, List.append_assoc, List.drop_left, ← size,
    ← length_plainForm document.blocks[block], List.take_left] at slice
  exact ⟨by rw [after, before, slice], count⟩

/-- A painter that was up to date before one block changed is up to date once it has painted that
block. -/
theorem freshen_setBlock {painter : Painter} {screen : Screen} {document : Document}
    (current : painter.UpToDate screen document) (basic : document.IsBasic) {block : Nat}
    (valid : block < document.blocks.length) {text : Text} (basicText : Text.IsBasic text) :
    (painter.freshen (document.setBlock block text) block).UpToDate screen
        (document.setBlock block text) ∧
      (painter.freshen (document.setBlock block text) block).SameSettings painter := by
  have there : (document.setBlock block text).blocks.getD block [] = text :=
    Document.getD_blocks (List.getElem?_set_self valid)
  rw [freshen, there]
  cases stale : painter.isStale (document.setBlock block text)
      ((document.setBlock block text).position block) text with
  | true => exact refresh_upToDate current.toCoherent _
  | false =>
    obtain ⟨same, count⟩ := plainText_eq_of_not_stale current.reading basic valid basicText stale
    refine ⟨⟨current.toCoherent, ?_, ?_, current.trusted⟩, .refl painter⟩
    · rw [same]
      exact current.cached
    · rw [same, count]
      exact current.reading

/-- What a painter paints of some blocks of a document by its last reading. -/
def paintingsOf (painter : Painter) (screen : Screen) (document : Document) (blocks : List Nat) :
    List Painting :=
  blocks.map fun block => painter.paintingOf screen document block (document.blocks.getD block [])

section Congr

variable {first second : Painter} {screen other : Screen} {document : Document}
  (one : first.UpToDate screen document) (another : second.UpToDate other document)
include one another

/-- Painters that are up to date paint the same if they index the text of the document alike. -/
theorem paintingOf_congr_index
    (alike : first.indexFor document.plainText = second.indexFor document.plainText) :
    first.paintingOf = second.paintingOf := by
  have index : first.index = second.index := by rw [one.index, another.index, alike]
  funext screen document block text
  rw [paintingOf, paintingOf, index]

variable (same : first.SameSettings second)
include same

/-- Painters that are up to date and have the same settings paint the same. -/
theorem paintingOf_congr : first.paintingOf = second.paintingOf := by
  apply paintingOf_congr_index one another
  rw [indexFor, indexFor, same.mode, same.palette]

theorem paintingsOf_congr : first.paintingsOf = second.paintingsOf := by
  funext screen document blocks
  rw [paintingsOf, paintingsOf, paintingOf_congr one another same]

end Congr

theorem paintAll_cons (painter : Painter) (screen : Screen) (document : Document) (block : Nat)
    (blocks : List Nat) :
    let text := document.blocks.getD block []
    let painted := (painter.freshen document block).paintAsRead screen document block text
    let rest := painted.2.paintAll screen document blocks
    (painter.paintAll screen document (block :: blocks)).1 = painted.1 :: rest.1 ∧
      (painter.paintAll screen document (block :: blocks)).2.1 = rest.2.1 := by
  obtain ⟨painting, next⟩ := painter.paint_eq screen document block
  dsimp only at painting next ⊢
  rw [← painting, ← next]
  exact ⟨rfl, rfl⟩

/-- Painting keeps a painter coherent and leaves its settings. -/
theorem paintAll_coherent {painter : Painter} {screen : Screen} (coherent : painter.Coherent screen)
    (document : Document) (blocks : List Nat) :
    (painter.paintAll screen document blocks).2.1.Coherent screen ∧
      (painter.paintAll screen document blocks).2.1.SameSettings painter := by
  induction blocks generalizing painter with
  | nil => exact ⟨coherent, .refl painter⟩
  | cons block blocks ih =>
    obtain ⟨fresh, settings⟩ := freshen_coherent coherent document block
    obtain ⟨-, painted, alike⟩ := fresh.paintAsRead document block (document.blocks.getD block [])
    obtain ⟨later, same⟩ := ih painted
    rw [(painter.paintAll_cons screen document block blocks).2]
    exact ⟨later, same.trans (alike.trans settings)⟩

/-- A painter that is up to date once it comes to the first of some blocks paints this block by its
reading, and is up to date for the others. -/
theorem paintAll_cons_of_upToDate {painter : Painter} {screen : Screen} {document : Document}
    {block : Nat} (fresh : (painter.freshen document block).UpToDate screen document)
    (blocks : List Nat) :
    ∃ next : Painter, next.UpToDate screen document ∧ next.SameSettings (painter.freshen document block) ∧
      (painter.paintAll screen document (block :: blocks)).1 =
        (painter.freshen document block).paintingOf screen document block
          (document.blocks.getD block []) :: (next.paintAll screen document blocks).1 ∧
      (painter.paintAll screen document (block :: blocks)).2.1 =
        (next.paintAll screen document blocks).2.1 := by
  obtain ⟨painted, next⟩ := painter.paintAll_cons screen document block blocks
  obtain ⟨painting, -, alike⟩ :=
    fresh.toCoherent.paintAsRead document block (document.blocks.getD block [])
  rw [painting] at painted
  exact ⟨_, fresh.paintAsRead document block _, alike, painted, next⟩

/-- A painter that is up to date paints blocks as any other with the same settings does. -/
theorem paintAll_upToDate {painter reader : Painter} {screen : Screen} {document : Document}
    (current : painter.UpToDate screen document) (read : reader.UpToDate screen document)
    (same : painter.SameSettings reader) (blocks : List Nat) :
    (painter.paintAll screen document blocks).1 = reader.paintingsOf screen document blocks ∧
      (painter.paintAll screen document blocks).2.1.UpToDate screen document := by
  induction blocks generalizing painter with
  | nil => exact ⟨rfl, current⟩
  | cons block blocks ih =>
    obtain ⟨fresh, settings⟩ := freshen_upToDate current block
    obtain ⟨next, current', alike, painted, last⟩ := paintAll_cons_of_upToDate fresh blocks
    obtain ⟨later, still⟩ := ih current' (alike.trans (settings.trans same))
    rw [painted, last, later, paintingOf_congr fresh read (settings.trans same)]
    exact ⟨rfl, still⟩

/-- A painter that is up to date once it comes to the first of some blocks paints them as any other
with the same settings does. -/
theorem paintAll_freshen {painter reader : Painter} {screen : Screen} {document : Document}
    {block : Nat} (fresh : (painter.freshen document block).UpToDate screen document)
    (read : reader.UpToDate screen document)
    (same : (painter.freshen document block).SameSettings reader) (blocks : List Nat) :
    (painter.paintAll screen document (block :: blocks)).1 =
        reader.paintingsOf screen document (block :: blocks) ∧
      (painter.paintAll screen document (block :: blocks)).2.1.UpToDate screen document := by
  obtain ⟨next, current, alike, painted, last⟩ := paintAll_cons_of_upToDate fresh blocks
  obtain ⟨later, still⟩ := paintAll_upToDate current read (alike.trans same) blocks
  rw [painted, last, later, paintingOf_congr fresh read same]
  exact ⟨rfl, still⟩

/-- A painter that distrusts its reading paints some blocks by a new reading of the document. -/
theorem paintAll_distrust {painter : Painter} {screen : Screen} (coherent : painter.Coherent screen)
    (document : Document) (blocks : List Nat) :
    (painter.distrust.paintAll screen document blocks).1 =
        (painter.refresh document).1.paintingsOf screen document blocks ∧
      (blocks ≠ [] →
        (painter.distrust.paintAll screen document blocks).2.1.UpToDate screen document) := by
  cases blocks with
  | nil => exact ⟨rfl, fun filled => absurd rfl filled⟩
  | cons block blocks =>
    obtain ⟨fresh, settings⟩ := freshen_distrust coherent document block
    obtain ⟨read, same⟩ := refresh_upToDate coherent document
    obtain ⟨painted, still⟩ := paintAll_freshen fresh read (settings.trans same.symm) blocks
    exact ⟨painted, fun _ => still⟩

end Painter

end KotlinHighlight.Editor
