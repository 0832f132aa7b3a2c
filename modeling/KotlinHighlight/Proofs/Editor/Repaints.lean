import KotlinHighlight.Proofs.Editor.Rounds

/-! # Queued repaints

In heuristic mode an edit can change how earlier blocks look, which painting the edited block does not
show. A reading with a new text therefore asks for a repaint of everything, unless one is pending
already, and a pending repaint is always queued (`kept_queued`). So once the queue is empty every block
looks as it does after a full repaint (`repaints_eq_rehighlight`).
-/

namespace KotlinHighlight.Editor

namespace Canvas

theorem length_foldl_record (paintings : List Painting) (canvas : Canvas) :
    (paintings.foldl record canvas).length = canvas.length := by
  induction paintings generalizing canvas with
  | nil => rfl
  | cons painting paintings ih => exact (ih _).trans List.length_set

theorem foldl_record_range {canvas : Canvas} {painting : Nat → Painting}
    (own : ∀ block, (painting block).block = block) {count : Nat} (within : count ≤ canvas.length) :
    ((List.range count).map painting).foldl record canvas =
      (List.range count).map painting ++ canvas.drop count := by
  induction count with
  | zero => rfl
  | succ count ih =>
    have size : ((List.range count).map painting).length = count := by
      rw [List.length_map, List.length_range]
    rw [List.range_succ, List.map_append, List.foldl_append, ih (Nat.le_of_succ_le within),
      List.drop_eq_getElem_cons within]
    rw [List.map_singleton, List.foldl_cons, List.foldl_nil, record, own, List.set_append_right _ _
      (Nat.le_of_eq size), size, Nat.sub_self, List.set_cons_zero, List.append_assoc]
    rfl

end Canvas

namespace Document

/-- Another text in a block that leaves the plain text leaves each block of it. -/
theorem plainBlocks_setBlock_of_eq {document : Document} {block : Nat}
    (valid : block < document.blocks.length) {text : Text}
    (same : (document.setBlock block text).plainText = document.plainText) :
    (document.setBlock block text).plainBlocks = document.plainBlocks := by
  have there := List.getElem?_eq_getElem valid
  rw [plainText_setBlock valid, plainText_split there, List.append_cancel_right_eq,
    List.append_cancel_left_eq] at same
  have itself : document.plainBlocks[block]? = some (plainForm document.blocks[block]) :=
    getElem?_plainBlocks there
  obtain ⟨within, here⟩ := List.getElem?_eq_some_iff.mp itself
  rw [plainBlocks_setBlock, same, ← here, List.set_getElem_self]

/-- The length of a block shows in its plain form. -/
theorem length_getD_plainBlocks (document : Document) (block : Nat) :
    (document.plainBlocks.getD block []).length = (document.blocks.getD block []).length := by
  rw [plainBlocks, List.getD_eq_getElem?_getD, List.getD_eq_getElem?_getD, List.getElem?_map]
  cases document.blocks[block]? with
  | none => rfl
  | some text => exact length_plainForm text

end Document

namespace Painter

/-- A painter shows documents of the same plain blocks alike. -/
theorem paintingsOf_congr_document (painter : Painter) (screen : Screen) {one other : Document}
    (basic : one.IsBasic) (basic' : other.IsBasic) (same : one.plainBlocks = other.plainBlocks)
    (blocks : List Nat) :
    painter.paintingsOf screen one blocks = painter.paintingsOf screen other blocks := by
  apply List.map_congr_left
  intro block _
  have size : (one.blocks.getD block []).length = (other.blocks.getD block []).length := by
    rw [← one.length_getD_plainBlocks, ← other.length_getD_plainBlocks, same]
  rw [paintingOf, paintingOf, basic.position_eq, basic'.position_eq, Document.start_eq,
    Document.start_eq, same, size]

/-- In heuristic mode a reading of another text asks for a repaint if none is pending. -/
theorem refresh_of_changed {painter : Painter} {screen : Screen} (coherent : painter.Coherent screen)
    (mode : painter.cache.mode = .heuristic) (free : painter.repaintPending = false)
    (remembered : painter.cache.text.isSome = true) {document : Document}
    (changed : painter.cache.text ≠ some document.plainText) :
    (painter.refresh document).2.repaintsAsked = 1 := by
  have other := mt (coherent.edition_eq_iff document.plainText).mp changed
  rw [Cache.ask_of_text_ne changed] at other
  simp only [refresh, Cache.ask_of_text_ne changed, if_neg other]
  simp [coherent.held remembered, mode, free]

/-- Painting with a painter that remembers the text of the document asks for nothing. -/
theorem paint_of_cached {painter : Painter} {screen : Screen} {document : Document}
    (coherent : painter.Coherent screen) (cached : painter.cache.text = some document.plainText)
    (block : Nat) :
    (painter.paint screen document block).2.2.repaintsAsked = 0 ∧
      (painter.paint screen document block).2.1.cache.text = some document.plainText := by
  rw [paint]
  dsimp only
  split
  · rw [coherent.refresh_of_cached cached]
    exact ⟨rfl, cached⟩
  · exact ⟨rfl, cached⟩

theorem paintAll_of_cached {painter : Painter} {screen : Screen} {document : Document}
    (coherent : painter.Coherent screen) (cached : painter.cache.text = some document.plainText)
    (blocks : List Nat) : (painter.paintAll screen document blocks).2.2.repaintsAsked = 0 := by
  induction blocks generalizing painter with
  | nil => rfl
  | cons block blocks ih =>
    obtain ⟨unasked, still⟩ := paint_of_cached coherent cached block
    have coherent' : (painter.paint screen document block).2.1.Coherent screen := by
      rw [(painter.paint_eq screen document block).2]
      exact ((freshen_coherent coherent document block).1.paintAsRead document block _).2.1
    exact congrArg₂ (· + ·) unasked (ih coherent' still)

/-- An edit of one block after which a painter asks for nothing has left the plain text, if the
mode is the heuristic and no repaint is pending. -/
theorem plainText_eq_of_not_asked {painter : Painter} {screen : Screen} {document : Document}
    (current : painter.UpToDate screen document) (mode : painter.cache.mode = .heuristic)
    (free : painter.repaintPending = false) (basic : document.IsBasic) {block : Nat}
    (valid : block < document.blocks.length) {text : Text} (basicText : Text.IsBasic text)
    (unasked : (painter.paint screen (document.setBlock block text) block).2.2.repaintsAsked = 0) :
    (document.setBlock block text).plainText = document.plainText := by
  by_contra changed
  have there : (document.setBlock block text).blocks.getD block [] = text :=
    Document.getD_blocks (List.getElem?_set_self valid)
  have stale : painter.isStale (document.setBlock block text)
      ((document.setBlock block text).position block) text = true := by
    by_contra fresh
    exact changed (plainText_eq_of_not_stale current.reading basic valid basicText
      (Bool.eq_false_iff.mpr fresh)).1
  have asked : (painter.refresh (document.setBlock block text)).2.repaintsAsked = 1 := by
    apply refresh_of_changed current.toCoherent mode free
    · rw [current.cached]
      rfl
    · rw [current.cached]
      exact fun same => changed (Option.some.inj same).symm
  rw [paint, there] at unasked
  dsimp only at unasked
  rw [if_pos stale, asked] at unasked
  exact Nat.one_ne_zero unasked

/-- Whether a repaint is queued if the painter takes one to be pending. -/
def Queued (painter : Painter) (queue : Nat) : Prop :=
  painter.repaintPending = true → 0 < queue

/-- A pending repaint is always queued. -/
theorem kept_queued (screen : Screen) : Kept screen Queued where
  new made := by
    obtain ⟨theme, mode, same⟩ := eq_of_new made
    rw [same]
    exact fun pending => absurd pending Bool.false_ne_true
  refresh {painter queue} queued document := by
    rw [refresh]
    dsimp only
    split
    · exact queued
    · intro pending
      rw [Bool.or_eq_true] at pending
      rcases pending with before | asks
      · exact Nat.lt_of_lt_of_le (queued before) (Nat.le_add_right _ _)
      · rw [if_pos asks]
        exact Nat.succ_pos queue
  paintAsRead queued _ _ _ := queued
  distrust queued := queued
  forgetFormats queued := queued
  configure queued done := by
    obtain ⟨cache, -, rfl⟩ := eq_of_configure done
    exact queued
  dequeue _ pending := absurd pending Bool.false_ne_true

end Painter

namespace Session

/-- The session after some actions, and the canvas with everything that they painted. -/
def runOnto (surroundings : Surroundings) (session : Session) (canvas : Canvas) :
    List Action → Session × Canvas
  | [] => (session, canvas)
  | action :: actions =>
    let (session, report) := session.step surroundings action
    session.runOnto surroundings (report.painted.foldl Canvas.record canvas) actions

/-- What is done in a session between two looks at the queue. -/
inductive Move where
  /-- Another text in one block, some runs of the queue, and then a painting of that block. -/
  | edit (block : Nat) (text : Text) (ticks : Nat)
  /-- A run of the queue. -/
  | tick

namespace Move

def actions : Move → List Action
  | edit block text ticks => .edit block text :: (List.replicate ticks .tick ++ [.paint [block]])
  | tick => [.tick]

def change (document : Document) : Move → Document
  | edit block text _ => document.setBlock block text
  | tick => document

/-- Whether a move changes a block that is there, to characters of one unit. -/
def IsValid (count : Nat) : Move → Prop
  | edit block text _ => block < count ∧ Text.IsBasic text
  | tick => True

instance (count : Nat) : (move : Move) → Decidable (move.IsValid count)
  | edit block text _ => inferInstanceAs (Decidable (block < count ∧ Text.IsBasic text))
  | tick => inferInstanceAs (Decidable True)

end Move

theorem runOnto_append (surroundings : Surroundings) (session : Session) (canvas : Canvas)
    (first second : List Action) :
    session.runOnto surroundings canvas (first ++ second) =
      let middle := session.runOnto surroundings canvas first
      middle.1.runOnto surroundings middle.2 second := by
  induction first generalizing session canvas with
  | nil => rfl
  | cons action actions ih => exact ih _ _

theorem step_tick_of_empty (surroundings : Surroundings) {session : Session}
    (idle : session.queue = 0) : session.step surroundings .tick = (session, {}) := by
  obtain ⟨document, painter, attached, queue⟩ := session
  obtain rfl : queue = 0 := idle
  rfl

/-- Whether the painter of a session knows its document, and a canvas shows it. -/
structure Shows (session : Session) (screen : Screen) (canvas : Canvas) (painter : Painter) :
    Prop where
  known : session.painter = some painter
  attached : session.attached = true
  current : session.document.blocks ≠ [] → painter.UpToDate screen session.document
  full : canvas = painter.paintingsOf screen session.document
    (List.range session.document.blocks.length)

/-- To record a painting of every block gives a canvas of these paintings. -/
theorem foldl_record_paintingsOf (painter : Painter) (screen : Screen) {document : Document}
    {canvas : Canvas} (size : canvas.length = document.blocks.length) :
    (painter.paintingsOf screen document (List.range document.blocks.length)).foldl
        Canvas.record canvas =
      painter.paintingsOf screen document (List.range document.blocks.length) := by
  rw [← size, Painter.paintingsOf, Canvas.foldl_record_range (fun _ => rfl) (Nat.le_refl _),
    List.drop_length, List.append_nil]

/-- A canvas that shows a document stays the same when one of its paintings is recorded again. -/
theorem record_paintingsOf (painter : Painter) (screen : Screen) {document : Document} {block : Nat}
    (valid : block < document.blocks.length) :
    Canvas.record (painter.paintingsOf screen document (List.range document.blocks.length))
        (painter.paintingOf screen document block (document.blocks.getD block [])) =
      painter.paintingsOf screen document (List.range document.blocks.length) := by
  have within : block <
      (painter.paintingsOf screen document (List.range document.blocks.length)).length := by
    rwa [Painter.paintingsOf, List.length_map, List.length_range]
  have here : (painter.paintingsOf screen document (List.range document.blocks.length))[block] =
      painter.paintingOf screen document block (document.blocks.getD block []) := by
    simp only [Painter.paintingsOf, List.getElem_map, List.getElem_range]
  change List.set _ block _ = _
  rw [← here]
  exact List.set_getElem_self within

/-- A repaint shows the document, and asks for nothing if the painter remembers its text already. -/
theorem repaintWith_shows {screen : Screen} {session : Session} {painter : Painter}
    (attached : session.attached = true) (coherent : painter.Coherent screen) :
    let after := session.repaintWith screen painter
    after.1.document = session.document ∧
      ((session.document.blocks ≠ [] → painter.cache.text = some session.document.plainText) →
        after.1.queue = session.queue) ∧
      ∃ next, next.SameSettings painter ∧ next.Coherent screen ∧
        after.1.Shows screen after.2.painted next := by
  obtain ⟨painted, document, still, queue, next, known, same, current⟩ :=
    repaintWith_attached attached coherent
  obtain ⟨read, settings⟩ := Painter.refresh_upToDate coherent session.document
  refine ⟨document, ?_, next, same, ?_, known, still, document ▸ current, ?_⟩
  · intro cached
    rw [queue]
    by_cases empty : session.document.blocks = []
    · rw [empty]
      rfl
    · have cached' : painter.distrust.cache.text = some session.document.plainText := cached empty
      rw [Painter.paintAll_of_cached coherent.distrust cached', Nat.add_zero]
  · have held : (session.repaintWith screen painter).1.Coherent screen :=
      holds_repaintWith (Painter.kept_coherent screen).toMaintained session coherent
    exact held next known
  · rw [document, painted]
    by_cases empty : session.document.blocks = []
    · rw [empty]
      rfl
    · rw [Painter.paintingsOf_congr read (current empty) (settings.trans same.symm)]

theorem runRepaint_shows {screen : Screen} {session : Session} {painter : Painter}
    (known : session.painter = some painter) (attached : session.attached = true)
    (coherent : painter.Coherent screen) :
    let after := session.runRepaint screen
    after.1.document = session.document ∧
      ((session.document.blocks ≠ [] → painter.cache.text = some session.document.plainText) →
        after.1.queue = session.queue) ∧
      ∃ next, next.SameSettings painter ∧ next.Coherent screen ∧
        after.1.Shows screen after.2.painted next := by
  have ready : ({ painter with repaintPending := false } : Painter).Coherent screen :=
    ⟨coherent.indexed, coherent.held, coherent.bounded, coherent.formats⟩
  have whole : session.runRepaint screen =
      session.repaintWith screen { painter with repaintPending := false } := by
    rw [runRepaint, known]
    exact if_pos attached
  obtain ⟨document, queue, next, same, shows⟩ := repaintWith_shows attached ready
  rw [whole]
  exact ⟨document, queue, next, ⟨same.theme, same.mode⟩, shows⟩

/-- One repaint or more show the document on any canvas of its size. -/
theorem runRepaints_shows {screen : Screen} {session : Session} {painter : Painter}
    (known : session.painter = some painter) (attached : session.attached = true)
    (coherent : painter.Coherent screen) {canvas : Canvas}
    (size : canvas.length = session.document.blocks.length) (count : Nat) :
    let after := session.runRepaints screen (count + 1)
    after.1.document = session.document ∧
      ((session.document.blocks ≠ [] → painter.cache.text = some session.document.plainText) →
        after.1.queue = session.queue) ∧
      ∃ next, next.SameSettings painter ∧
        after.1.Shows screen (after.2.painted.foldl Canvas.record canvas) next := by
  induction count generalizing session painter canvas with
  | zero =>
    obtain ⟨document, queue, next, same, -, shows⟩ := runRepaint_shows known attached coherent
    refine ⟨document, queue, next, same, shows.known, shows.attached, shows.current, ?_⟩
    have painted : (session.runRepaints screen 1).2.painted = (session.runRepaint screen).2.painted :=
      List.append_nil _
    rw [painted, shows.full]
    exact foldl_record_paintingsOf next screen (document ▸ size)
  | succ count ih =>
    obtain ⟨document, queue, next, same, coherent', shows⟩ :=
      runRepaint_shows known attached coherent
    have size' : ((session.runRepaint screen).2.painted.foldl Canvas.record canvas).length =
        (session.runRepaint screen).1.document.blocks.length := by
      rw [Canvas.length_foldl_record, size, document]
    obtain ⟨document', queue', last, same', shows'⟩ := ih shows.known shows.attached coherent' size'
    rw [← List.foldl_append] at shows'
    refine ⟨document'.trans document, fun cached => ?_, last, same'.trans same, shows'⟩
    exact (queue' fun filled => (shows.current filled).cached).trans (queue cached)

/-- A run of a queue that is not empty shows the document. -/
theorem step_tick_shows {surroundings : Surroundings} {session : Session} {painter : Painter}
    (known : session.painter = some painter) (attached : session.attached = true)
    (coherent : painter.Coherent surroundings.screen) {canvas : Canvas}
    (size : canvas.length = session.document.blocks.length) (waiting : 0 < session.queue) :
    let after := session.step surroundings .tick
    after.1.document = session.document ∧
      ((session.document.blocks ≠ [] →
        painter.cache.text = some session.document.plainText) → after.1.queue = 0) ∧
      ∃ next, next.SameSettings painter ∧ after.1.Shows surroundings.screen
        (after.2.painted.foldl Canvas.record canvas) next := by
  obtain ⟨count, queued⟩ := Nat.exists_eq_succ_of_ne_zero (Nat.ne_of_gt waiting)
  let emptied : Session := { session with queue := 0 }
  have whole : session.step surroundings .tick =
      emptied.runRepaints surroundings.screen (count + 1) := by
    rw [step, queued]
  have known' : emptied.painter = some painter := known
  rw [whole]
  exact runRepaints_shows known' attached coherent size count

/-- Whether a session has a painter in heuristic mode that takes a repaint to be pending only if one
is queued, and a canvas for its document. -/
structure Watches (session : Session) (screen : Screen) (canvas : Canvas) (painter : Painter) :
    Prop where
  known : session.painter = some painter
  attached : session.attached = true
  mode : painter.cache.mode = .heuristic
  basic : session.document.IsBasic
  coherent : session.Coherent screen
  queued : session.Holds Painter.Queued 0
  size : canvas.length = session.document.blocks.length

/-- Whether in addition the painter knows the document, and the canvas shows it unless repaints are
queued. -/
structure Tracks (session : Session) (screen : Screen) (canvas : Canvas) (painter : Painter) : Prop
    extends session.Watches screen canvas painter where
  current : session.document.blocks ≠ [] → painter.UpToDate screen session.document
  shown : session.queue = 0 → canvas = painter.paintingsOf screen session.document
    (List.range session.document.blocks.length)

section Tracks

variable {surroundings : Surroundings} {session : Session} {canvas : Canvas} {painter : Painter}

/-- A canvas that shows the document does so whether or not repaints are queued. -/
theorem Shows.tracks (shows : session.Shows surroundings.screen canvas painter)
    (mode : painter.cache.mode = .heuristic) (basic : session.document.IsBasic)
    (coherent : session.Coherent surroundings.screen) (queued : session.Holds Painter.Queued 0) :
    session.Tracks surroundings.screen canvas painter where
  known := shows.known
  attached := shows.attached
  mode := mode
  basic := basic
  coherent := coherent
  queued := queued
  size := by rw [shows.full, Painter.paintingsOf, List.length_map, List.length_range]
  current := shows.current
  shown _ := shows.full

/-- A run of a queue that is not empty shows the document, whatever was edited. -/
theorem Watches.tick (watches : session.Watches surroundings.screen canvas painter)
    (waiting : 0 < session.queue) :
    let after := session.step surroundings .tick
    after.1.document = session.document ∧
      ((session.document.blocks ≠ [] →
        painter.cache.text = some session.document.plainText) → after.1.queue = 0) ∧
      ∃ next, after.1.Tracks surroundings.screen (after.2.painted.foldl Canvas.record canvas) next := by
  obtain ⟨document, queue, next, same, shows⟩ := step_tick_shows watches.known watches.attached
    (watches.coherent painter watches.known) watches.size waiting
  refine ⟨document, queue, next, ?_⟩
  exact shows.tracks (same.mode.trans watches.mode) (document ▸ watches.basic)
    (step_coherent surroundings watches.coherent .tick)
    (step_holds (Painter.kept_queued _) watches.queued .tick)

/-- After a run of the queue, whether or not it was empty, nothing is queued if the painter knew the
document before. -/
theorem Tracks.tick (tracks : session.Tracks surroundings.screen canvas painter) :
    let after := session.step surroundings .tick
    after.1.document = session.document ∧ after.1.queue = 0 ∧
      ∃ next, after.1.Tracks surroundings.screen (after.2.painted.foldl Canvas.record canvas) next := by
  by_cases waiting : 0 < session.queue
  · obtain ⟨document, queue, next⟩ := tracks.toWatches.tick waiting
    exact ⟨document, queue fun filled => (tracks.current filled).cached, next⟩
  · have idle : session.queue = 0 := by omega
    rw [step_tick_of_empty surroundings idle]
    exact ⟨rfl, idle, painter, tracks⟩

theorem Tracks.ticks (tracks : session.Tracks surroundings.screen canvas painter) (count : Nat) :
    let after := session.runOnto surroundings canvas (List.replicate count .tick)
    after.1.document = session.document ∧ ∃ next, after.1.Tracks surroundings.screen after.2 next := by
  induction count generalizing session canvas painter with
  | zero => exact ⟨rfl, painter, tracks⟩
  | succ count ih =>
    obtain ⟨document, -, next, later⟩ := tracks.tick
    obtain ⟨document', last⟩ := ih later
    exact ⟨document'.trans document, last⟩

/-- Runs of the queue either do nothing at all, or they show the document. -/
theorem Watches.ticks (watches : session.Watches surroundings.screen canvas painter) (count : Nat) :
    let after := session.runOnto surroundings canvas (List.replicate count .tick)
    after = (session, canvas) ∨ after.1.document = session.document ∧
      ∃ next, after.1.Tracks surroundings.screen after.2 next := by
  induction count with
  | zero => exact .inl rfl
  | succ count ih =>
    by_cases waiting : 0 < session.queue
    · obtain ⟨document, -, next, tracks⟩ := watches.tick waiting
      obtain ⟨document', last⟩ := tracks.ticks count
      exact .inr ⟨document'.trans document, last⟩
    · have idle : session.queue = 0 := by omega
      rw [List.replicate_succ, runOnto, step_tick_of_empty surroundings idle]
      exact ih

/-- To paint a block keeps a canvas in touch if the painter knows the document by then, and if the
canvas showed the document already in case nothing is queued. -/
theorem Watches.paint (watches : session.Watches surroundings.screen canvas painter) {block : Nat}
    (valid : block < session.document.blocks.length)
    (fresh : (painter.freshen session.document block).UpToDate surroundings.screen session.document)
    (settings : (painter.freshen session.document block).SameSettings painter)
    (ready : session.queue = 0 →
      (painter.paint surroundings.screen session.document block).2.2.repaintsAsked = 0 →
      canvas = (painter.freshen session.document block).paintingsOf surroundings.screen
        session.document (List.range session.document.blocks.length)) :
    let after := session.step surroundings (.paint [block])
    after.1.document = session.document ∧
      ∃ next, after.1.Tracks surroundings.screen (after.2.painted.foldl Canvas.record canvas) next := by
  have coherent := step_coherent surroundings watches.coherent (.paint [block])
  have queued := step_holds (Painter.kept_queued surroundings.screen) watches.queued
    (.paint [block])
  have whole : session.step surroundings (.paint [block]) =
      session.paintWith surroundings.screen painter [block] := by
    rw [step, withPainter, watches.known]
  rw [whole] at coherent queued ⊢
  obtain ⟨known, document, attached, queue, painted⟩ :=
    paintWith_attached watches.attached surroundings.screen painter [block]
  obtain ⟨next, current, alike, first, last⟩ := Painter.paintAll_cons_of_upToDate fresh []
  refine ⟨document, next, ⟨known.trans (congrArg some last), attached, ?_, ?_, coherent, queued, ?_⟩,
    fun _ => document ▸ current, ?_⟩
  · exact alike.mode.trans (settings.mode.trans watches.mode)
  · rw [document]
    exact watches.basic
  · rw [Canvas.length_foldl_record, document]
    exact watches.size
  · intro empty
    have asked : (painter.paintAll surroundings.screen session.document [block]).2.2.repaintsAsked =
        (painter.paint surroundings.screen session.document block).2.2.repaintsAsked := rfl
    have shown := ready (by omega) (by omega)
    rw [painted, first, document, Painter.paintingsOf_congr current fresh alike, shown]
    exact record_paintingsOf _ surroundings.screen valid

/-- To paint any block keeps a canvas in touch with a document that the painter knows. -/
theorem Tracks.paint (tracks : session.Tracks surroundings.screen canvas painter) {block : Nat}
    (valid : block < session.document.blocks.length) :
    let after := session.step surroundings (.paint [block])
    after.1.document = session.document ∧
      ∃ next, after.1.Tracks surroundings.screen (after.2.painted.foldl Canvas.record canvas) next := by
  have filled : session.document.blocks ≠ [] := List.ne_nil_of_length_pos (by omega)
  obtain ⟨fresh, settings⟩ := Painter.freshen_upToDate (tracks.current filled) block
  apply tracks.toWatches.paint valid fresh settings
  intro idle _
  rw [tracks.shown idle, Painter.paintingsOf_congr fresh (tracks.current filled) settings]

/-- To paint the edited block keeps a canvas in touch: if a repaint is neither asked for nor queued,
then the edit has left the plain text, and the canvas shows it already. -/
theorem Tracks.paint_edited (tracks : session.Tracks surroundings.screen canvas painter)
    {block : Nat} (valid : block < session.document.blocks.length) {text : Text}
    (basic : Text.IsBasic text)
    (watches : ({ session with document := session.document.setBlock block text } : Session).Watches
      surroundings.screen canvas painter) :
    let edited : Session := { session with document := session.document.setBlock block text }
    let after := edited.step surroundings (.paint [block])
    after.1.document = edited.document ∧
      ∃ next, after.1.Tracks surroundings.screen (after.2.painted.foldl Canvas.record canvas) next := by
  intro edited
  have filled : session.document.blocks ≠ [] := List.ne_nil_of_length_pos (by omega)
  have current := tracks.current filled
  have count : edited.document.blocks.length = session.document.blocks.length := List.length_set
  obtain ⟨fresh, settings⟩ := Painter.freshen_setBlock current tracks.basic valid basic
  apply watches.paint (count ▸ valid) fresh settings
  intro idle unasked
  have free : painter.repaintPending = false := by
    rw [Bool.eq_false_iff]
    intro pending
    have queued : 0 < session.queue + 0 := tracks.queued painter tracks.known pending
    exact absurd queued (Nat.not_lt.mpr (Nat.le_of_eq idle))
  have same := Painter.plainText_eq_of_not_asked current tracks.mode free tracks.basic valid basic
    unasked
  have current' : painter.UpToDate surroundings.screen edited.document :=
    current.of_plainText_eq tracks.basic watches.basic same
  rw [tracks.shown idle, count,
    ← painter.paintingsOf_congr_document surroundings.screen watches.basic tracks.basic
      (Document.plainBlocks_setBlock_of_eq valid same),
    Painter.paintingsOf_congr fresh current' settings]

/-- An edit leaves what is watched. -/
theorem Tracks.edit (tracks : session.Tracks surroundings.screen canvas painter) (block : Nat)
    {text : Text} (basic : Text.IsBasic text) :
    ({ session with document := session.document.setBlock block text } : Session).Watches
      surroundings.screen canvas painter where
  known := tracks.known
  attached := tracks.attached
  mode := tracks.mode
  basic := Document.isBasic_setBlock tracks.basic block basic
  coherent := tracks.coherent
  queued := tracks.queued
  size := tracks.size.trans List.length_set.symm

/-- Each move keeps the canvas in touch with the document. -/
theorem Tracks.move (tracks : session.Tracks surroundings.screen canvas painter) {move : Move}
    (valid : move.IsValid session.document.blocks.length) :
    let after := session.runOnto surroundings canvas move.actions
    after.1.document = move.change session.document ∧
      ∃ next, after.1.Tracks surroundings.screen after.2 next := by
  cases move with
  | tick => exact tracks.ticks 1
  | edit block text ticks =>
    obtain ⟨within, basic⟩ := valid
    let edited : Session := { session with document := session.document.setBlock block text }
    have watches : edited.Watches surroundings.screen canvas painter := tracks.edit block basic
    have count : edited.document.blocks.length = session.document.blocks.length := List.length_set
    have split : session.runOnto surroundings canvas (Move.edit block text ticks).actions =
        let middle := edited.runOnto surroundings canvas (List.replicate ticks .tick)
        middle.1.runOnto surroundings middle.2 [.paint [block]] :=
      edited.runOnto_append surroundings canvas _ _
    rw [split]
    -- Runs of the queue between the edit and its painting may have shown the new document already.
    rcases watches.ticks ticks with same | ⟨document, next, tracks'⟩
    · rw [same]
      exact tracks.paint_edited within basic watches
    · rw [← count, ← document] at within
      obtain ⟨document', last⟩ := tracks'.paint within
      exact ⟨document'.trans document, last⟩

theorem Tracks.moves (tracks : session.Tracks surroundings.screen canvas painter)
    {moves : List Move} (valid : ∀ move ∈ moves, move.IsValid session.document.blocks.length) :
    let after := session.runOnto surroundings canvas (moves.flatMap Move.actions)
    after.1.document = moves.foldl Move.change session.document ∧
      ∃ next, after.1.Tracks surroundings.screen after.2 next := by
  induction moves generalizing session canvas painter with
  | nil => exact ⟨rfl, painter, tracks⟩
  | cons move moves ih =>
    rw [List.forall_mem_cons] at valid
    obtain ⟨document, next, tracks'⟩ := tracks.move valid.1
    have count : (move.change session.document).blocks.length = session.document.blocks.length := by
      cases move with
      | tick => rfl
      | edit block text ticks => exact List.length_set
    rw [List.flatMap_cons, runOnto_append]
    have later := ih tracks' fun other member => by
      rw [document, count]
      exact valid.2 other member
    rw [document] at later
    exact later

/-- Where nothing is queued the canvas is that of a full repaint. -/
theorem Tracks.eq_rehighlight (tracks : session.Tracks surroundings.screen canvas painter)
    (idle : session.queue = 0) :
    canvas = (session.step surroundings .rehighlight).2.painted := by
  have coherent := tracks.coherent painter tracks.known
  obtain ⟨painted, -⟩ := step_rehighlight surroundings tracks.known coherent tracks.attached
  obtain ⟨read, same⟩ := Painter.refresh_upToDate coherent session.document
  rw [painted, tracks.shown idle]
  by_cases empty : session.document.blocks = []
  · rw [empty]
    rfl
  · rw [Painter.paintingsOf_congr read (tracks.current empty) same]

end Tracks

/-- Take a session, whatever was done in it, with a document of basic characters and a painter in
heuristic mode, and repaint everything. Then go on with moves: another text of basic characters in one
block and a painting of that block, with runs of the queue before, between and after. One more run of
the queue leaves it empty, and whenever it is empty the paintings recorded last are those that another
full repaint would record. -/
theorem repaints_eq_rehighlight (surroundings : Surroundings) (actions : List Action)
    {session : Session} (reached : (Session.run surroundings {} actions).1 = session)
    {painter : Painter} (known : session.painter = some painter)
    (attached : session.attached = true) (mode : painter.cache.mode = .heuristic)
    (basic : session.document.IsBasic) {moves : List Move}
    (valid : ∀ move ∈ moves, move.IsValid session.document.blocks.length) :
    let start := session.step surroundings .rehighlight
    let last := start.1.runOnto surroundings start.2.painted (moves.flatMap Move.actions)
    let drained := last.1.runOnto surroundings last.2 [.tick]
    last.1.document = moves.foldl Move.change session.document ∧
      (last.1.queue = 0 → last.2 = (last.1.step surroundings .rehighlight).2.painted) ∧
      drained.1.document = last.1.document ∧ drained.1.queue = 0 ∧
      drained.2 = (drained.1.step surroundings .rehighlight).2.painted := by
  have coherent : session.Coherent surroundings.screen :=
    reached ▸ run_coherent surroundings (coherent_initial _) actions
  have queued : session.Holds Painter.Queued 0 :=
    reached ▸ run_holds (Painter.kept_queued surroundings.screen) (holds_initial _) actions
  have whole : session.step surroundings .rehighlight =
      session.repaintWith surroundings.screen painter := by
    rw [step, withPainter, known]
  obtain ⟨document, -, next, same, -, shows⟩ :=
    repaintWith_shows attached (coherent painter known)
  rw [← whole] at document shows
  have tracks := shows.tracks (same.mode.trans mode) (document ▸ basic)
    (step_coherent surroundings coherent .rehighlight)
    (step_holds (Painter.kept_queued surroundings.screen) queued .rehighlight)
  obtain ⟨edits, later, tracks'⟩ := tracks.moves fun move member => by
    rw [document]
    exact valid move member
  obtain ⟨document', empty, drained, tracks''⟩ := tracks'.tick
  rw [document] at edits
  exact ⟨edits, tracks'.eq_rehighlight, document', empty, tracks''.eq_rehighlight empty⟩

/-- A comment that is closed in the second block, which the first block shows after the repaint. -/
theorem repaints_eq_rehighlight_of_closer :
    let surroundings : Surroundings := ⟨[], ⟨fun _ => true⟩⟩
    let session := (Session.run surroundings {}
      [.construct none (some "heuristic") false, .replace [['/', '*'], ['1']]]).1
    let moves : List Move := [.edit 1 ['*', '/'] 1]
    let start := session.step surroundings .rehighlight
    let last := start.1.runOnto surroundings start.2.painted (moves.flatMap Move.actions)
    let drained := last.1.runOnto surroundings last.2 [.tick]
    last.1.document = ⟨[['/', '*'], ['*', '/']]⟩ ∧
      (last.1.queue = 0 → last.2 = (last.1.step surroundings .rehighlight).2.painted) ∧
      drained.1.document = last.1.document ∧ drained.1.queue = 0 ∧
      drained.2 = (drained.1.step surroundings .rehighlight).2.painted :=
  repaints_eq_rehighlight _ _ rfl rfl rfl rfl (by decide) (by decide)

end Session

end KotlinHighlight.Editor
