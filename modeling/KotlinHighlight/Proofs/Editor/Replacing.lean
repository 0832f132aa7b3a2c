import KotlinHighlight.Proofs.Editor.Fresh

/-! # Replaced documents

When other blocks take the place of a document, a painter that scans goes on with its last reading as
long as the blocks stand in it, and reads the new text at the first block that does not
(`paintAll_replaced`). It compares no more than a block with as many characters of the old text, so it
does not see that a line feed came or went next to a block. Where line feeds stand as before, every
block looks as it should (`replaced_eq_fresh`), and elsewhere it may not (`replaced_ne_fresh`).
-/

namespace KotlinHighlight.Editor

open Highlight (carriedInto)

theorem plainChar_plainChar (c : Char) : plainChar (plainChar c) = plainChar c := by
  by_cases space : c.toNat = 0x00a0
  · rw [plainChar, plainChar, if_pos space]
    decide
  · by_cases feed : c.toNat = 0x2028 ∨ c.toNat = 0x2029 ∨ c.toNat = 0xfdd0 ∨ c.toNat = 0xfdd1
    · have same : plainChar c = '\n' := by rw [plainChar, if_neg space, if_pos feed]
      rw [same]
      decide
    · have same : plainChar c = c := by rw [plainChar, if_neg space, if_neg feed]
      rw [same, same]

theorem plainForm_of_suffix {text rest : Text} (ends : rest <:+ plainForm text) :
    plainForm rest = rest := by
  refine (List.map_congr_left fun c member => ?_).trans (List.map_id rest)
  obtain ⟨original, -, rfl⟩ := List.mem_map.mp (ends.subset member)
  exact plainChar_plainChar original

namespace Document

theorem isBasic_plainText {document : Document} (basic : document.IsBasic) :
    Text.IsBasic document.plainText := by
  have units := Text.length16_eq_length (isBasic_joinLines basic)
  rw [← length16_plainForm, ← length_plainForm (Text.joinLines document.blocks)] at units
  exact (Text.length16_eq_length_iff _).mp units

/-- Whether a text is as long as that of a document and has a block of it at its place. -/
def standsIn (document : Document) (text : Text) (block : Nat) : Bool :=
  document.plainText.length == text.length &&
    (text.drop (document.start block)).take (document.blocks.getD block []).length ==
      plainForm (document.blocks.getD block [])

/-- The plain text up to the end of a block. -/
def textThrough (document : Document) (block : Nat) : Text :=
  Text.linesBefore block document.plainBlocks ++ plainForm (document.blocks.getD block [])

/-- Whether a text that begins as that of a document up to the end of a block, which is not the last,
has a line feed there too. -/
def BreaksIn (document : Document) (text : Text) : Prop :=
  ∀ block, block + 1 < document.blocks.length → document.textThrough block <+: text →
    document.textThrough block ++ ['\n'] <+: text

variable {document : Document} {text : Text}

theorem length_of_standsIn {block : Nat} (stands : document.standsIn text block = true) :
    document.plainText.length = text.length :=
  beq_iff_eq.mp (Bool.and_eq_true_iff.mp stands).1

theorem plainText_eq_of_standsIn_empty {old : Document} (empty : old.blocks = []) {block : Nat}
    (stands : document.standsIn old.plainText block = true) : old.plainText = document.plainText := by
  have nothing : old.plainText = [] := by
    rw [plainText, empty]
    rfl
  have size := length_of_standsIn stands
  rw [nothing] at size ⊢
  exact (List.eq_nil_of_length_eq_zero size).symm

/-- The plain text up to the end of the last block is all of it. -/
theorem textThrough_of_last {block : Nat} (last : document.blocks.length = block + 1) :
    document.textThrough block = document.plainText := by
  have nothing : Text.linesAfter block document.plainBlocks = [] := by
    apply Text.linesAfter_of_last
    rw [plainBlocks, List.length_map, last]
  have there := getElem?_blocks (show block < document.blocks.length by omega)
  rw [plainText_split there, nothing, List.append_nil]
  rfl

theorem linesBefore_succ_eq {block : Nat} (valid : block < document.blocks.length) :
    Text.linesBefore (block + 1) document.plainBlocks = document.textThrough block ++ ['\n'] :=
  Text.linesBefore_succ (getElem?_plainBlocks (getElem?_blocks valid))

/-- A block that stands after the same lines as in the document goes on with the same text. -/
theorem textThrough_prefix {block : Nat}
    (begins : Text.linesBefore block document.plainBlocks <+: text)
    (stands : document.standsIn text block = true) : document.textThrough block <+: text := by
  obtain ⟨rest, rfl⟩ := begins
  rw [standsIn, Bool.and_eq_true, beq_iff_eq, start_eq, List.drop_left] at stands
  rw [textThrough, ← beq_iff_eq.mp stands.2, List.prefix_append_right_inj]
  exact List.take_prefix _ _

/-- Where line feeds stand as before, the blocks that stand in a text have the same lines before
them. -/
theorem linesBefore_prefix (breaks : document.BreaksIn text) {block : Nat}
    (valid : block < document.blocks.length)
    (stand : ∀ earlier < block, document.standsIn text earlier = true) :
    Text.linesBefore block document.plainBlocks <+: text := by
  induction block with
  | zero => exact List.nil_prefix
  | succ block ih =>
    have begins := ih (by omega) fun earlier before => stand earlier (by omega)
    have through := textThrough_prefix begins (stand block (Nat.lt_succ_self block))
    rw [linesBefore_succ_eq (by omega)]
    exact breaks block valid through

theorem linesBefore_congr {one other : Document} {count number : Nat}
    (same : one.blocks.take count = other.blocks.take count) (early : number ≤ count) :
    Text.linesBefore number one.plainBlocks = Text.linesBefore number other.plainBlocks := by
  have taken := congrArg (List.take number) same
  rw [List.take_take, List.take_take, Nat.min_eq_left early] at taken
  rw [Text.linesBefore, Text.linesBefore, plainBlocks, plainBlocks, ← List.map_take,
    ← List.map_take, taken]

/-- If a text goes on with a line feed after the first blocks of a document, there is a document of
this text that begins with the same blocks. -/
theorem exists_plainText_eq {old document : Document} (basic : old.IsBasic)
    (basic' : document.IsBasic) {block : Nat} (more : block + 1 < document.blocks.length)
    (begins : Text.linesBefore (block + 1) document.plainBlocks <+: old.plainText) :
    ∃ middle : Document, middle.plainText = old.plainText ∧ middle.IsBasic ∧
      block + 1 < middle.blocks.length ∧
      middle.blocks.take (block + 1) = document.blocks.take (block + 1) := by
  obtain ⟨rest, whole⟩ := begins
  have ends : rest <:+ old.plainText := ⟨_, whole⟩
  have length : (document.blocks.take (block + 1)).length = block + 1 :=
    List.length_take_of_le (Nat.le_of_lt more)
  let middle : Document := ⟨document.blocks.take (block + 1) ++ [rest]⟩
  have same : middle.blocks.take (block + 1) = document.blocks.take (block + 1) :=
    List.take_left' length
  have last : middle.blocks[block + 1]? = some rest := by
    rw [List.getElem?_append_right (Nat.le_of_eq length), length, Nat.sub_self]
    rfl
  have count : middle.blocks.length = block + 2 := by
    rw [List.length_append, length]
    rfl
  refine ⟨middle, ?_, ?_, by omega, same⟩
  · have before := linesBefore_congr same (Nat.le_refl (block + 1))
    rw [← textThrough_of_last count, textThrough, getD_blocks last, before, plainForm_of_suffix ends,
      whole]
  · intro text member
    rcases List.mem_append.mp member with early | late
    · exact basic' text (List.mem_of_mem_take early)
    · rw [List.mem_singleton.mp late]
      exact fun c inRest => isBasic_plainText basic c (ends.subset inRest)

end Document

/-- What a scan paints of a block depends on the blocks up to it, and on whether there are more. -/
theorem scanPainting_congr (screen : Screen) (palette : Palette) {one other : Document} {block : Nat}
    (same : one.blocks.take (block + 1) = other.blocks.take (block + 1))
    (more : block + 1 < one.blocks.length) (more' : block + 1 < other.blocks.length) :
    scanPainting screen palette one block = scanPainting screen palette other block := by
  have carried : ∀ number ≤ block + 1,
      carriedInto one.plainBlocks number = carriedInto other.plainBlocks number := by
    intro number early
    rw [carriedInto, carriedInto, Document.linesBefore_congr same early]
  have content : one.blocks.getD block [] = other.blocks.getD block [] := by
    have here := congrArg (·.getD block []) same
    simpa [List.getD_eq_getElem?_getD, List.getElem?_take] using here
  rw [scanPainting, scanPainting, carried block (Nat.le_succ block), carried (block + 1) (Nat.le_refl _),
    content, if_pos more, if_pos more']

/-- What is painted of a block of a document by the spans that a scan finds in a text. -/
def paintingBy (screen : Screen) (palette : Palette) (text : Text) (document : Document)
    (block : Nat) : Painting :=
  let index := Highlight.indexOf palette text
  let start : Int := document.position block
  let stop := start + (document.blocks.getD block []).length
  { block
    formats := ((index.spansBetween start stop).map Piece.shown).map screen.range
    state := some (.ofCategory (index.endCategory (index.lineAt stop))) }

/-- The numbers that come first and have a property are lower than the others. -/
theorem forall_le_of_mem_takeWhile {stands : Nat → Bool} {count block : Nat}
    (member : block ∈ (List.range count).takeWhile stands) :
    block < count ∧ ∀ earlier ≤ block, stands earlier = true := by
  have first := List.prefix_iff_eq_take.mp
    (List.takeWhile_prefix stands : (List.range count).takeWhile stands <+: List.range count)
  rw [List.take_range] at first
  have here := member
  rw [first, List.mem_range] at here
  refine ⟨by omega, fun earlier before => ?_⟩
  have inside : earlier ∈ (List.range count).takeWhile stands := by
    rw [first, List.mem_range]
    omega
  exact List.mem_takeWhile_imp inside

namespace Painter

variable {painter reader : Painter} {screen : Screen} {old document : Document}

/-- A painter that scans paints the blocks of each document by the text that it has read. -/
theorem paintingOf_eq_paintingBy (current : painter.UpToDate screen old)
    (scan : painter.cache.mode = .scan) (document : Document) (block : Nat) :
    painter.paintingOf screen document block (document.blocks.getD block []) =
      paintingBy screen painter.cache.palette old.plainText document block := by
  refine Painting.ext_fields rfl ?_ ?_
  · rw [formats_paintingOf, index_eq_indexOf current scan]
    rfl
  · rw [paintingOf, index_eq_indexOf current scan]
    rfl

variable (current : painter.UpToDate screen old) (basic : old.IsBasic) (basic' : document.IsBasic)
include current basic basic'

/-- A painter relies on a reading for just the blocks that stand in it. -/
theorem isStale_eq (block : Nat) :
    painter.isStale document (document.position block) (document.blocks.getD block []) =
      !document.standsIn old.plainText block := by
  rw [isStale, current.reading, basic'.position_eq]
  dsimp only
  rw [current.trusted, Document.characterCount_eq basic, Document.characterCount_eq basic',
    Document.standsIn, Bool.not_and, Bool.false_or]
  congr 1
  rw [bne, Bool.eq_iff_iff]
  simp

variable (read : reader.UpToDate screen document) (same : painter.SameSettings reader)
include read same

/-- Blocks of another document are painted by the last reading as long as they stand in it, and from
the first one on that does not by a reading of the document. -/
theorem paintAll_replaced (blocks : List Nat) :
    (painter.paintAll screen document blocks).1 =
      painter.paintingsOf screen document (blocks.takeWhile (document.standsIn old.plainText)) ++
        reader.paintingsOf screen document (blocks.dropWhile (document.standsIn old.plainText)) := by
  induction blocks generalizing painter with
  | nil => rfl
  | cons block blocks ih =>
    have stale := isStale_eq current basic basic' block
    cases stands : document.standsIn old.plainText block with
    | false =>
      -- Here the document is read, and no later block can make the painter go back.
      obtain ⟨fresh, settings⟩ := refresh_upToDate current.toCoherent document
      have reads : painter.freshen document block = (painter.refresh document).1 := by
        rw [freshen, stale, stands]
        rfl
      rw [← reads] at fresh settings
      rw [(paintAll_freshen fresh read (settings.trans same) blocks).1, List.takeWhile_cons,
        List.dropWhile_cons, stands]
      rfl
    | true =>
      have relies : painter.freshen document block = painter := by
        rw [freshen, stale, stands]
        rfl
      obtain ⟨painted, -⟩ := painter.paintAll_cons screen document block blocks
      obtain ⟨painting, -, alike⟩ :=
        current.toCoherent.paintAsRead document block (document.blocks.getD block [])
      have later := ih (current.paintAsRead document block (document.blocks.getD block []))
        (alike.trans same)
      rw [painted, relies, painting, later, List.takeWhile_cons, List.dropWhile_cons, stands]
      rfl

/-- The blocks of another document look as they should just if those do that are painted by the last
reading. -/
theorem paintAll_eq_iff (blocks : List Nat) :
    (painter.paintAll screen document blocks).1 = reader.paintingsOf screen document blocks ↔
      ∀ block ∈ blocks.takeWhile (document.standsIn old.plainText),
        painter.paintingOf screen document block (document.blocks.getD block []) =
          reader.paintingOf screen document block (document.blocks.getD block []) := by
  have split : reader.paintingsOf screen document blocks =
      reader.paintingsOf screen document (blocks.takeWhile (document.standsIn old.plainText)) ++
        reader.paintingsOf screen document
          (blocks.dropWhile (document.standsIn old.plainText)) := by
    rw [paintingsOf, paintingsOf, paintingsOf, ← List.map_append, List.takeWhile_append_dropWhile]
  rw [paintAll_replaced current basic basic' read same, split, List.append_left_inj, paintingsOf,
    paintingsOf, List.map_inj_left]

/-- If the last reading begins as the document does up to a line feed after a block, then the block
looks the same by it. -/
theorem paintingOf_eq_of_prefix (scan : painter.cache.mode = .scan) {block : Nat}
    (more : block + 1 < document.blocks.length)
    (begins : Text.linesBefore (block + 1) document.plainBlocks <+: old.plainText) :
    painter.paintingOf screen document block (document.blocks.getD block []) =
      reader.paintingOf screen document block (document.blocks.getD block []) := by
  obtain ⟨middle, plain, basicMiddle, moreMiddle, taken⟩ :=
    Document.exists_plainText_eq basic basic' more begins
  have current' : painter.UpToDate screen middle := current.of_plainText_eq basic basicMiddle plain
  have there := Document.getElem?_blocks (show block < document.blocks.length by omega)
  have there' : middle.blocks[block]? = some (document.blocks.getD block []) := by
    have here := congrArg (·[block]?) taken
    rw [List.getElem?_take_of_lt (Nat.lt_succ_self block),
      List.getElem?_take_of_lt (Nat.lt_succ_self block), there] at here
    exact here
  have position : document.position block = middle.position block := by
    rw [basic'.position_eq, basicMiddle.position_eq, Document.start_eq, Document.start_eq,
      Document.linesBefore_congr taken (Nat.le_succ block)]
  have alone : painter.paintingOf screen document block (document.blocks.getD block []) =
      painter.paintingOf screen middle block (document.blocks.getD block []) := by
    rw [paintingOf, paintingOf, position]
  rw [alone, paintingOf_eq_scanPainting current' scan basicMiddle there',
    paintingOf_eq_scanPainting read (same.mode.symm.trans scan) basic' there, ← same.palette]
  exact scanPainting_congr screen _ taken moreMiddle more

/-- Where line feeds stand as before, each block that a painter relies on its reading for looks the
same by it. -/
theorem paintingOf_eq_of_standsIn (scan : painter.cache.mode = .scan)
    (breaks : document.BreaksIn old.plainText) {block : Nat}
    (valid : block < document.blocks.length)
    (stand : ∀ earlier ≤ block, document.standsIn old.plainText earlier = true) :
    painter.paintingOf screen document block (document.blocks.getD block []) =
      reader.paintingOf screen document block (document.blocks.getD block []) := by
  have begins := Document.linesBefore_prefix breaks valid fun earlier before =>
    stand earlier (Nat.le_of_lt before)
  have through := Document.textThrough_prefix begins (stand block (Nat.le_refl block))
  by_cases more : block + 1 < document.blocks.length
  · apply paintingOf_eq_of_prefix current basic basic' read same scan more
    rw [Document.linesBefore_succ_eq valid]
    exact breaks block more through
  · rw [Document.textThrough_of_last (by omega)] at through
    have whole := through.eq_of_length
      (Document.length_of_standsIn (stand block (Nat.le_refl block)))
    rw [paintingOf_congr (current.of_plainText_eq basic basic' whole) read same]

end Painter

namespace Session

/-- What is painted of blocks that take the place of a document. -/
theorem painted_replace {surroundings : Surroundings} {session : Session} {painter : Painter}
    (known : session.painter = some painter) (attached : session.attached = true)
    (texts : List Text) (blocks : List Nat) :
    let replaced := (session.step surroundings (.replace texts)).1
    (replaced.step surroundings (.paint blocks)).2.painted =
      (painter.paintAll surroundings.screen ⟨texts⟩ blocks).1 := by
  intro replaced
  have known' : replaced.painter = some painter := known
  have attached' : replaced.attached = true := attached
  rw [step, withPainter, known']
  exact (paintWith_attached attached' surroundings.screen painter blocks).2.2.2.2

/-- A document without blocks has not been read, and so everything that takes its place is painted by
a new reading. -/
theorem painted_replace_of_empty {surroundings : Surroundings} {session : Session}
    {painter : Painter} (known : session.painter = some painter)
    (attached : session.attached = true) (coherent : painter.Coherent surroundings.screen)
    (empty : session.document.blocks = []) (blocks : List Text) :
    let start := (session.step surroundings .rehighlight).1
    let replaced := (start.step surroundings (.replace blocks)).1
    (replaced.step surroundings (.paint (List.range blocks.length))).2.painted =
      freshPaintings surroundings painter.cache.theme painter.cache.mode ⟨blocks⟩ := by
  intro start replaced
  have distrusts : start.painter = some painter.distrust := by
    change (session.step surroundings .rehighlight).1.painter = _
    rw [step, withPainter, known]
    dsimp only
    rw [repaintWith, if_pos attached, empty, paintWith, if_pos attached]
    rfl
  obtain ⟨-, -, still, -⟩ := step_rehighlight surroundings known coherent attached
  obtain ⟨read, same⟩ := Painter.refresh_upToDate coherent ⟨blocks⟩
  obtain ⟨painted, -⟩ := Painter.paintAll_distrust coherent ⟨blocks⟩ (List.range blocks.length)
  have fresh := paintingsOf_eq_fresh read
  rw [same.theme, same.mode] at fresh
  exact (painted_replace distrusts still blocks _).trans (painted.trans fresh)

/-- After a full repaint, blocks that take the place of the document are painted by a painter that knows
the old document, where a new painter would paint them as one that knows the new document. -/
theorem exists_painters_of_replace (surroundings : Surroundings) {session : Session}
    {painter : Painter} (known : session.painter = some painter)
    (attached : session.attached = true) (coherent : session.Coherent surroundings.screen)
    (blocks : List Text) :
    let start := (session.step surroundings .rehighlight).1
    let replaced := (start.step surroundings (.replace blocks)).1
    ∃ next reader : Painter, next.SameSettings painter ∧ next.SameSettings reader ∧
      (session.document.blocks ≠ [] → next.UpToDate surroundings.screen session.document) ∧
      reader.UpToDate surroundings.screen ⟨blocks⟩ ∧
      (replaced.step surroundings (.paint (List.range blocks.length))).2.painted =
        (next.paintAll surroundings.screen ⟨blocks⟩ (List.range blocks.length)).1 ∧
      freshPaintings surroundings painter.cache.theme painter.cache.mode ⟨blocks⟩ =
        reader.paintingsOf surroundings.screen ⟨blocks⟩ (List.range blocks.length) := by
  intro start replaced
  obtain ⟨-, -, still, next, known', same, current⟩ :=
    step_rehighlight surroundings known (coherent painter known) attached
  have coherent' : next.Coherent surroundings.screen :=
    step_coherent surroundings coherent .rehighlight next known'
  obtain ⟨read, settings⟩ := Painter.refresh_upToDate coherent' ⟨blocks⟩
  have fresh := paintingsOf_eq_fresh read
  rw [settings.theme, settings.mode, same.theme, same.mode] at fresh
  exact ⟨next, _, same, settings.symm, current, read, painted_replace known' still blocks _,
    fresh.symm⟩

/-- Take a session, whatever was done in it, with a document of basic characters and a painter that
scans. Repaint everything, put other blocks of basic characters in the place of the document, and
paint them in order. All of them look as a new painter would paint them just if those do that are
painted by the last reading: the first ones that stand in the old text, if it is as long as the new
one. That is so wherever the old text has the line feeds of the new one, as far as the two agree. -/
theorem replaced_eq_fresh (surroundings : Surroundings) (actions : List Action) {session : Session}
    (reached : (Session.run surroundings {} actions).1 = session) {painter : Painter}
    (known : session.painter = some painter) (attached : session.attached = true)
    (mode : painter.cache.mode = .scan) (basic : session.document.IsBasic) {blocks : List Text}
    (basic' : Document.IsBasic ⟨blocks⟩) :
    let document : Document := ⟨blocks⟩
    let old := session.document.plainText
    let start := (session.step surroundings .rehighlight).1
    let replaced := (start.step surroundings (.replace blocks)).1
    let painted := (replaced.step surroundings (.paint (List.range blocks.length))).2.painted
    let fresh := freshPaintings surroundings painter.cache.theme .scan document
    (painted = fresh ↔ ∀ block ∈ (List.range blocks.length).takeWhile (document.standsIn old),
      paintingBy surroundings.screen painter.cache.palette old document block =
        paintingBy surroundings.screen painter.cache.palette document.plainText document block) ∧
    ((old.length = document.plainText.length → document.BreaksIn old) → painted = fresh) := by
  intro document old start replaced painted fresh
  have coherent : session.Coherent surroundings.screen :=
    reached ▸ run_coherent surroundings (coherent_initial _) actions
  by_cases empty : session.document.blocks = []
  · have correct : painted = fresh := by
      have painted := painted_replace_of_empty known attached (coherent painter known) empty blocks
      rwa [mode] at painted
    refine ⟨⟨fun _ block member => ?_, fun _ => correct⟩, fun _ => correct⟩
    have stands := (forall_le_of_mem_takeWhile member).2 block (Nat.le_refl block)
    have same : old = document.plainText := Document.plainText_eq_of_standsIn_empty empty stands
    rw [same]
  · obtain ⟨next, reader, same, alike, current, read, whole, shown⟩ :=
      exists_painters_of_replace surroundings known attached coherent blocks
    have scan : next.cache.mode = .scan := same.mode.trans mode
    have agree := Painter.paintAll_eq_iff (current empty) basic basic' read alike
      (List.range blocks.length)
    have relied := Painter.paintingOf_eq_paintingBy (current empty) scan document
    have renewed := Painter.paintingOf_eq_paintingBy read (alike.mode.symm.trans scan) document
    rw [same.palette] at relied
    rw [← alike.palette, same.palette] at renewed
    rw [mode] at shown
    rw [← whole, ← shown] at agree
    constructor
    · exact agree.trans (forall₂_congr fun block _ => Eq.congr (relied block) (renewed block))
    · intro breaks
      rw [agree]
      intro block member
      obtain ⟨valid, stand⟩ := forall_le_of_mem_takeWhile member
      have size := Document.length_of_standsIn (stand block (Nat.le_refl block))
      exact Painter.paintingOf_eq_of_standsIn (current empty) basic basic' read alike scan
        (breaks size.symm) valid stand

/-- Another last block of the same length, which alone does not stand in the old text. -/
theorem replaced_eq_fresh_of_last :
    let surroundings : Surroundings := ⟨[], ⟨fun _ => true⟩⟩
    let session := (Session.run surroundings {} [.construct none (some "scan") false,
      .replace [['1'], ['2']]]).1
    let start := (session.step surroundings .rehighlight).1
    let replaced := (start.step surroundings (.replace [['1'], ['a']])).1
    (replaced.step surroundings (.paint (List.range 2))).2.painted =
      freshPaintings surroundings none .scan ⟨[['1'], ['a']]⟩ := by
  intro surroundings session start replaced
  have reached : (Session.run surroundings {} [.construct none (some "scan") false,
    .replace [['1'], ['2']]]).1 = session := rfl
  have basic : Document.IsBasic ⟨[['1'], ['a']]⟩ := by decide
  apply (replaced_eq_fresh surroundings _ reached rfl rfl rfl (by decide) basic).2
  intro _ block more _
  obtain rfl : block = 0 := by
    simp only [List.length_cons, List.length_nil] at more
    omega
  decide

/-- A line feed in the place of the last character of a known word, which the block before it is
still painted with. -/
theorem replaced_ne_fresh :
    let surroundings : Surroundings := ⟨[], ⟨fun _ => true⟩⟩
    let session := (Session.run surroundings {} [.construct none (some "scan") false,
      .replace [['v', 'a', 'l', '1']]]).1
    let start := (session.step surroundings .rehighlight).1
    let replaced := (start.step surroundings (.replace [['v', 'a', 'l'], []])).1
    (replaced.step surroundings (.paint [0, 1])).2.painted ≠
      freshPaintings surroundings none .scan ⟨[['v', 'a', 'l'], []]⟩ := by
  decide +kernel

end Session

end KotlinHighlight.Editor
