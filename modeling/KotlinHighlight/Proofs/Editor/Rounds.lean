import KotlinHighlight.Proofs.Editor.Painting
import KotlinHighlight.Proofs.Editor.Session

/-! # Repainting what an edit changes

After an edit of one block, that block is painted and then the blocks after it, as long as the state
of a block comes out different from before. All that a block takes over from the blocks before it is
told by the state of the one before it, so every block then looks as it does after a full repaint
(`rounds_eq_rehighlight`).
-/

namespace KotlinHighlight.Editor

open Highlight (carriedInto)

/-- The paintings that were recorded last, block by block. -/
abbrev Canvas := List Painting

namespace Canvas

def record (canvas : Canvas) (painting : Painting) : Canvas :=
  canvas.set painting.block painting

def stateAt (canvas : Canvas) (block : Nat) : Option BlockState :=
  canvas[block]?.bind (·.state)

end Canvas

namespace Session

/-- Paints up to `count` blocks from a block on, as long as the state of a block comes out different
from the one on the canvas `before`. -/
def settle (surroundings : Surroundings) (session : Session) (before canvas : Canvas) :
    Nat → Nat → Session × Canvas
  | 0, _ => (session, canvas)
  | count + 1, block =>
    let (session, report) := session.step surroundings (.paint [block])
    let canvas := report.painted.foldl Canvas.record canvas
    if canvas.stateAt block = before.stateAt block then (session, canvas)
    else session.settle surroundings before canvas count (block + 1)

/-- Another text in one block, and the paintings that follow. -/
def round (surroundings : Surroundings) (session : Session) (canvas : Canvas) (block : Nat)
    (text : Text) : Session × Canvas :=
  let (session, _) := session.step surroundings (.edit block text)
  session.settle surroundings canvas canvas (session.document.blocks.length - block) block

def rounds (surroundings : Surroundings) (session : Session) (canvas : Canvas) :
    List (Nat × Text) → Session × Canvas
  | [] => (session, canvas)
  | (block, text) :: others =>
    let (session, canvas) := session.round surroundings canvas block text
    session.rounds surroundings canvas others

end Session

/-- The states of blocks tell apart the categories of regions. -/
theorem category_eq_of_ofCategory_eq {first second : Option RegionKind}
    (same : BlockState.ofCategory (first.map (·.category)) =
      BlockState.ofCategory (second.map (·.category))) :
    first.map (·.category) = second.map (·.category) := by
  revert same
  cases first with
  | none =>
    cases second with
    | none => exact fun _ => rfl
    | some kind => cases kind <;> decide
  | some kind =>
    cases second with
    | none => cases kind <;> decide
    | some other => cases kind <;> cases other <;> decide

section Edit

variable {document : Document} {block : Nat} (text : Text)

/-- An edit leaves what the blocks up to the edited one take over. -/
theorem carriedInto_setBlock {number : Nat} (early : number ≤ block) :
    carriedInto (document.setBlock block text).plainBlocks number =
      carriedInto document.plainBlocks number := by
  rw [carriedInto, carriedInto, Document.plainBlocks_setBlock, Text.linesBefore_set early]

/-- If a block after an edit takes over the same as before, so do the blocks after it. -/
theorem carriedInto_setBlock_of_eq {start number : Nat} (after : block < start)
    (same : carriedInto (document.setBlock block text).plainBlocks start =
      carriedInto document.plainBlocks start)
    (later : start ≤ number) (within : number ≤ document.blocks.length) :
    carriedInto (document.setBlock block text).plainBlocks number =
      carriedInto document.plainBlocks number := by
  induction number, later using Nat.le_induction with
  | base => exact same
  | succ number later ih =>
    have there := Document.getElem?_plainBlocks
      (List.getElem?_eq_getElem (show number < document.blocks.length by omega))
    have there' : (document.setBlock block text).plainBlocks[number]? =
        some (plainForm document.blocks[number]) := by
      rw [Document.plainBlocks_setBlock, List.getElem?_set_ne (by omega), there]
    rw [Highlight.carriedInto_succ there, Highlight.carriedInto_succ there', ih (by omega)]

/-- A block other than the edited one looks as before if it takes over the same as before and leaves
the same open. -/
theorem scanPainting_setBlock (screen : Screen) (palette : Palette) {number : Nat}
    (other : number ≠ block)
    (before : carriedInto (document.setBlock block text).plainBlocks number =
      carriedInto document.plainBlocks number)
    (after : number + 1 < document.blocks.length →
      carriedInto (document.setBlock block text).plainBlocks (number + 1) =
        carriedInto document.plainBlocks (number + 1)) :
    scanPainting screen palette (document.setBlock block text) number =
      scanPainting screen palette document number := by
  have content : (document.setBlock block text).blocks.getD number [] =
      document.blocks.getD number [] := by
    rw [List.getD_eq_getElem?_getD, List.getD_eq_getElem?_getD, Document.setBlock,
      List.getElem?_set_ne (Ne.symm other)]
  have count : (document.setBlock block text).blocks.length = document.blocks.length :=
    List.length_set
  rw [scanPainting, scanPainting, content, before, count]
  split
  · rename_i more
    rw [after more]
  · rfl

/-- A block painted anew looks as it should if it did so up to a block, and what that block leaves
open is told by the same state as before. -/
theorem scanPainting_setBlock_after (screen : Screen) (palette : Palette) {start number : Nat}
    (after : block ≤ start) (later : start < number) (within : number < document.blocks.length)
    (same : (scanPainting screen palette (document.setBlock block text) start).state =
      (scanPainting screen palette document start).state) :
    scanPainting screen palette (document.setBlock block text) number =
      scanPainting screen palette document number := by
  have count : (document.setBlock block text).blocks.length = document.blocks.length :=
    List.length_set
  have more : start + 1 < document.blocks.length := by omega
  rw [scanPainting, scanPainting, count, if_pos more, if_pos more, Option.some.injEq] at same
  have carried := Region.pending_eq_of_category_eq (category_eq_of_ofCategory_eq same)
  have kept : ∀ other, start < other → other ≤ document.blocks.length →
      carriedInto (document.setBlock block text).plainBlocks other =
        carriedInto document.plainBlocks other := fun other later within =>
    carriedInto_setBlock_of_eq text (Nat.lt_succ_of_le after) carried later within
  exact scanPainting_setBlock text screen palette (by omega) (kept number later (by omega))
    fun more => kept (number + 1) (by omega) (by omega)

/-- A block before the edited one looks as before. -/
theorem scanPainting_setBlock_before (screen : Screen) (palette : Palette) {number : Nat}
    (early : number < block) :
    scanPainting screen palette (document.setBlock block text) number =
      scanPainting screen palette document number :=
  scanPainting_setBlock text screen palette (Nat.ne_of_lt early)
    (carriedInto_setBlock text (Nat.le_of_lt early)) fun _ => carriedInto_setBlock text early

end Edit

namespace Canvas

/-- The canvas on which the blocks before a number show one document, and the others another. -/
def mixed (screen : Screen) (palette : Palette) (fresh old : Document) (number : Nat) : Canvas :=
  (List.range old.blocks.length).map fun block =>
    scanPainting screen palette (if block < number then fresh else old) block

def full (screen : Screen) (palette : Palette) (document : Document) : Canvas :=
  (List.range document.blocks.length).map (scanPainting screen palette document)

section Mixed

variable (screen : Screen) (palette : Palette) {fresh old : Document} {number : Nat}

theorem getElem?_full {block : Nat} (valid : block < old.blocks.length) :
    (full screen palette old)[block]? = some (scanPainting screen palette old block) := by
  rw [full, List.getElem?_map, List.getElem?_range valid, Option.map_some]

theorem getElem?_mixed (fresh : Document) (number : Nat) {block : Nat}
    (valid : block < old.blocks.length) : (mixed screen palette fresh old number)[block]? =
      some (scanPainting screen palette (if block < number then fresh else old) block) := by
  rw [mixed, List.getElem?_map, List.getElem?_range valid, Option.map_some]

theorem stateAt_full {block : Nat} (valid : block < old.blocks.length) :
    (full screen palette old).stateAt block = (scanPainting screen palette old block).state := by
  rw [stateAt, getElem?_full screen palette valid, Option.bind_some]

/-- The block painted last has the state it should have. -/
theorem stateAt_mixed (fresh : Document) {block : Nat} (valid : block < old.blocks.length) :
    (mixed screen palette fresh old (block + 1)).stateAt block =
      (scanPainting screen palette fresh block).state := by
  rw [stateAt, getElem?_mixed screen palette fresh (block + 1) valid, Option.bind_some,
    if_pos (Nat.lt_succ_self block)]

theorem record_mixed (fresh old : Document) (number : Nat) :
    (mixed screen palette fresh old number).record (scanPainting screen palette fresh number) =
      mixed screen palette fresh old (number + 1) := by
  rw [record, mixed, mixed]
  refine List.ext_getElem (by rw [List.length_set, List.length_map, List.length_map])
    fun block _ _ => ?_
  rw [List.getElem_set, List.getElem_map, List.getElem_map, List.getElem_range]
  change (if number = block then _ else _) = _
  split
  · rename_i here
    rw [here, if_pos (Nat.lt_succ_self block)]
  · rename_i other
    simp only [show block < number + 1 ↔ block < number by omega]

/-- On a canvas that shows one document up to a block, the other blocks may look alike. -/
theorem mixed_eq_full (count : fresh.blocks.length = old.blocks.length)
    (same : ∀ block, number ≤ block → block < old.blocks.length →
      scanPainting screen palette fresh block = scanPainting screen palette old block) :
    mixed screen palette fresh old number = full screen palette fresh := by
  rw [mixed, full, count]
  apply List.map_congr_left
  intro block member
  split
  · rfl
  · exact (same block (by omega) (List.mem_range.mp member)).symm

/-- On a canvas that shows one document from a block on, the other blocks may look alike. -/
theorem full_eq_mixed (same : ∀ block, block < number →
      scanPainting screen palette fresh block = scanPainting screen palette old block) :
    full screen palette old = mixed screen palette fresh old number := by
  apply List.map_congr_left
  intro block _
  split
  · exact (same block ‹_›).symm
  · rfl

end Mixed

end Canvas

namespace Session

/-- Whether a session has a painter that scans its document, in the colors of a palette. -/
structure Scans (session : Session) (palette : Palette) (painter : Painter) : Prop where
  known : session.painter = some painter
  attached : session.attached = true
  mode : painter.cache.mode = .scan
  palette : painter.cache.palette = palette
  basic : session.document.IsBasic

/-- To paint one block shows it as it should be, if the painter knows the document by then. -/
theorem Scans.paint {session : Session} {palette : Palette} {painter : Painter}
    (scans : session.Scans palette painter) (surroundings : Surroundings) {block : Nat}
    (valid : block < session.document.blocks.length)
    (fresh : (painter.freshen session.document block).UpToDate surroundings.screen session.document)
    (settings : (painter.freshen session.document block).SameSettings painter) :
    let after := session.step surroundings (.paint [block])
    after.2.painted = [scanPainting surroundings.screen palette session.document block] ∧
      after.1.document = session.document ∧
      ∃ next, after.1.Scans palette next ∧ next.UpToDate surroundings.screen session.document := by
  have whole : session.step surroundings (.paint [block]) =
      session.paintWith surroundings.screen painter [block] := by
    rw [step, withPainter, scans.known]
  obtain ⟨next, document, still, -, painted⟩ :=
    paintWith_attached scans.attached surroundings.screen painter [block]
  obtain ⟨later, current, alike, first, last⟩ := Painter.paintAll_cons_of_upToDate fresh []
  have mode := settings.mode.trans scans.mode
  have colors := settings.palette.trans scans.palette
  rw [whole]
  refine ⟨?_, document, later, ⟨next.trans (congrArg some last), still, alike.mode.trans mode,
    alike.palette.trans colors, ?_⟩, current⟩
  · rw [painted, first, Painter.paintingOf_eq_scanPainting fresh mode scans.basic
      (Document.getElem?_blocks valid), colors]
    rfl
  · rw [document]
    exact scans.basic

/-- To settle shows the whole document, if the blocks before the first one that is painted are shown
as they should be and only one block up to it was changed. -/
theorem settle_eq_full (surroundings : Surroundings) {session : Session} {palette : Palette}
    {painter : Painter} (scans : session.Scans palette painter) {old : Document} {changed : Nat}
    {text : Text} (edited : session.document = old.setBlock changed text) {count block : Nat}
    (after : changed ≤ block) (left : block + count = old.blocks.length)
    (ready : 0 < count →
      (painter.freshen session.document block).UpToDate surroundings.screen session.document ∧
        (painter.freshen session.document block).SameSettings painter)
    (done : count = 0 → painter.UpToDate surroundings.screen session.document) :
    let settled := session.settle surroundings (Canvas.full surroundings.screen palette old)
      (Canvas.mixed surroundings.screen palette session.document old block) count block
    settled.2 = Canvas.full surroundings.screen palette session.document ∧
      settled.1.document = session.document ∧
      ∃ next, settled.1.Scans palette next ∧
        next.UpToDate surroundings.screen session.document := by
  have lengths : session.document.blocks.length = old.blocks.length := by
    rw [edited]
    exact List.length_set
  induction count generalizing session painter block with
  | zero =>
    refine ⟨?_, rfl, painter, scans, done rfl⟩
    exact Canvas.mixed_eq_full _ _ lengths fun other later valid => absurd valid (by omega)
  | succ count ih =>
    have valid : block < old.blocks.length := by omega
    obtain ⟨fresh, settings⟩ := ready (Nat.succ_pos count)
    obtain ⟨painted, document, next, scans', current⟩ :=
      scans.paint surroundings (lengths ▸ valid) fresh settings
    rw [settle]
    dsimp only
    rw [painted, List.foldl_cons, List.foldl_nil, Canvas.record_mixed,
      Canvas.stateAt_mixed _ _ _ valid, Canvas.stateAt_full _ _ valid]
    split
    · rename_i same
      refine ⟨Canvas.mixed_eq_full _ _ lengths fun other later within => ?_, document, next, scans',
        current⟩
      rw [edited] at same ⊢
      exact scanPainting_setBlock_after text _ _ after later within same
    · rw [← document] at edited current lengths ⊢
      have ready := Painter.freshen_upToDate current (block + 1)
      exact ih scans' edited (by omega) (by omega) (fun _ => ready) (fun _ => current) lengths

/-- Whether a canvas shows the document of a session, and the painter knows that document. -/
structure InStep (session : Session) (screen : Screen) (palette : Palette) (canvas : Canvas) :
    Prop where
  full : canvas = Canvas.full screen palette session.document
  coherent : session.Coherent screen
  current : ∃ painter, session.Scans palette painter ∧
    (session.document.blocks ≠ [] → painter.UpToDate screen session.document)

/-- A full repaint shows the whole document. -/
theorem Scans.rehighlight {session : Session} {palette : Palette} {painter : Painter}
    (scans : session.Scans palette painter) {surroundings : Surroundings}
    (coherent : session.Coherent surroundings.screen) :
    let after := session.step surroundings .rehighlight
    after.2.painted = Canvas.full surroundings.screen palette session.document ∧
      after.1.document = session.document ∧
      after.1.InStep surroundings.screen palette after.2.painted := by
  have knows := coherent painter scans.known
  obtain ⟨painted, document, attached, next, known, settings, current⟩ :=
    step_rehighlight surroundings scans.known knows scans.attached
  obtain ⟨read, same⟩ := Painter.refresh_upToDate knows session.document
  have full : (session.step surroundings .rehighlight).2.painted =
      Canvas.full surroundings.screen palette session.document := by
    rw [painted]
    apply List.map_congr_left
    intro block member
    have there := Document.getElem?_blocks (List.mem_range.mp member)
    rw [Painter.paintingOf_eq_scanPainting read (same.mode.trans scans.mode) scans.basic there,
      same.palette, scans.palette]
  refine ⟨full, document, ?_, step_coherent surroundings coherent .rehighlight, next, ?_, ?_⟩
  · rw [full, document]
  · exact ⟨known, attached, settings.mode.trans scans.mode, settings.palette.trans scans.palette,
      document ▸ scans.basic⟩
  · rw [document]
    exact current

/-- A round leaves the canvas in step with the document. -/
theorem InStep.round {session : Session} {palette : Palette} {canvas : Canvas}
    {surroundings : Surroundings} (inStep : session.InStep surroundings.screen palette canvas)
    {block : Nat} (valid : block < session.document.blocks.length) {text : Text}
    (basic : Text.IsBasic text) :
    let after := session.round surroundings canvas block text
    after.1.document = session.document.setBlock block text ∧
      after.1.InStep surroundings.screen palette after.2 := by
  obtain ⟨painter, scans, current⟩ := inStep.current
  have filled : session.document.blocks ≠ [] := fun empty => by
    rw [empty] at valid
    exact Nat.not_lt_zero _ valid
  let edited : Session := { session with document := session.document.setBlock block text }
  have scans' : edited.Scans palette painter :=
    ⟨scans.known, scans.attached, scans.mode, scans.palette,
      Document.isBasic_setBlock scans.basic block basic⟩
  have ready := Painter.freshen_setBlock (current filled) scans.basic valid basic
  have count : edited.document.blocks.length = session.document.blocks.length := List.length_set
  have start : Canvas.full surroundings.screen palette session.document =
      Canvas.mixed surroundings.screen palette edited.document session.document block :=
    Canvas.full_eq_mixed _ _ fun other early =>
      scanPainting_setBlock_before text surroundings.screen palette early
  obtain ⟨full, document, next, later, upToDate⟩ := settle_eq_full surroundings scans' rfl
    (Nat.le_refl block) (show block + (edited.document.blocks.length - block) = _ by omega)
    (fun _ => ready) fun empty => absurd empty (by omega)
  have whole : session.round surroundings canvas block text =
      edited.settle surroundings canvas canvas (edited.document.blocks.length - block) block := rfl
  rw [← start, ← inStep.full, ← whole] at full document later
  refine ⟨document, ?_, ?_, next, later, fun _ => document ▸ upToDate⟩
  · rw [full, document]
  · intro other known
    obtain rfl := Option.some.inj (later.known.symm.trans known)
    exact upToDate.toCoherent

/-- Rounds leave the canvas in step with the document. -/
theorem InStep.rounds {session : Session} {palette : Palette} {canvas : Canvas}
    {surroundings : Surroundings} (inStep : session.InStep surroundings.screen palette canvas)
    {changes : List (Nat × Text)} (valid : ∀ change ∈ changes,
      change.1 < session.document.blocks.length ∧ Text.IsBasic change.2) :
    let after := session.rounds surroundings canvas changes
    after.1.document = changes.foldl (fun document change => document.setBlock change.1 change.2)
        session.document ∧
      after.1.InStep surroundings.screen palette after.2 := by
  induction changes generalizing session canvas with
  | nil => exact ⟨rfl, inStep⟩
  | cons change changes ih =>
    rw [List.forall_mem_cons] at valid
    obtain ⟨⟨inside, basic⟩, others⟩ := valid
    obtain ⟨document, next⟩ := inStep.round inside basic
    have count : (session.document.setBlock change.1 change.2).blocks.length =
        session.document.blocks.length := List.length_set
    have later := ih next fun other member => by
      rw [document, count]
      exact others other member
    rw [document] at later
    exact later

/-- Take a session, whatever was done in it, with a document of basic characters and a painter that
scans, and repaint everything. Then run rounds: another text of basic characters in one block, and
the paintings from that block on, as long as the state of a block comes out different. After any
number of rounds the paintings recorded last are those that another full repaint would record. -/
theorem rounds_eq_rehighlight (surroundings : Surroundings) (actions : List Action)
    {session : Session} (reached : (Session.run surroundings {} actions).1 = session)
    {painter : Painter} (known : session.painter = some painter)
    (attached : session.attached = true) (mode : painter.cache.mode = .scan)
    (basic : session.document.IsBasic) {changes : List (Nat × Text)}
    (valid : ∀ change ∈ changes,
      change.1 < session.document.blocks.length ∧ Text.IsBasic change.2) :
    let start := session.step surroundings .rehighlight
    let last := start.1.rounds surroundings start.2.painted changes
    last.2 = (last.1.step surroundings .rehighlight).2.painted ∧
      last.1.document = changes.foldl
        (fun document change => document.setBlock change.1 change.2) session.document := by
  have coherent : session.Coherent surroundings.screen :=
    reached ▸ run_coherent surroundings (coherent_initial _) actions
  have scans : session.Scans painter.cache.palette painter :=
    ⟨known, attached, mode, rfl, basic⟩
  obtain ⟨-, document, inStep⟩ := scans.rehighlight coherent
  obtain ⟨edits, later⟩ := inStep.rounds fun change member => by
    rw [document]
    exact valid change member
  obtain ⟨painter', scans', -⟩ := later.current
  obtain ⟨painted, -, -⟩ := scans'.rehighlight later.coherent
  rw [document] at edits
  exact ⟨later.full.trans painted.symm, edits⟩

/-- A comment that is opened in the first block and closed in the second, and then not opened. -/
theorem rounds_eq_rehighlight_of_comment :
    let surroundings : Surroundings := ⟨[], ⟨fun _ => true⟩⟩
    let session := (Session.run surroundings {}
      [.construct none (some "scan") false, .replace [['1'], ['2'], ['3']]]).1
    let changes : List (Nat × Text) := [(0, ['/', '*']), (1, ['*', '/']), (0, ['/'])]
    let start := session.step surroundings .rehighlight
    let last := start.1.rounds surroundings start.2.painted changes
    last.2 = (last.1.step surroundings .rehighlight).2.painted ∧
      last.1.document = ⟨[['/'], ['*', '/'], ['3']]⟩ :=
  rounds_eq_rehighlight _ _ rfl rfl rfl rfl (by decide) (by decide)

end Session

end KotlinHighlight.Editor
