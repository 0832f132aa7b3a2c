import KotlinHighlight.Editor.Session
import KotlinHighlight.Proofs.Editor.Painter

/-! # What sessions keep

What no step of a painter ends holds after every run of a session (`run_holds`). So the index of its
painter stays that of the text that the painter remembers, its formats stay those that it would make
(`run_coherent`), and a full repaint shows every block by a reading of the document as it is
(`step_rehighlight`).
-/

namespace KotlinHighlight.Editor

namespace Painter

/-- A new painter has a new cache and kept nothing else. -/
theorem eq_of_new {theme : Option Theme} {mode : Option String} {debug : Bool}
    {made : Painter × Effects} (new : Painter.new theme mode debug = .ok made) :
    ∃ (theme : Option Theme) (mode : Containment),
      made.1 = { cache := { theme, mode }, debug } := by
  rw [Painter.new, Cache.new] at new
  cases parsed : Containment.parse mode with
  | error fault =>
    rw [parsed] at new
    exact absurd new nofun
  | ok mode =>
    rw [parsed] at new
    obtain rfl := Except.ok.inj new
    exact ⟨_, mode, rfl⟩

theorem text_of_configure {cache configured : Cache} {theme : Option Theme} {mode : Option String}
    (done : cache.configure theme mode = .ok configured) : configured.text = none := by
  unfold Cache.configure at done
  cases mode with
  | none =>
    obtain rfl := Except.ok.inj done
    rfl
  | some name =>
    dsimp only at done
    cases parsed : Containment.parse (some name) with
    | error fault =>
      rw [parsed] at done
      exact absurd done nofun
    | ok mode =>
      rw [parsed] at done
      obtain rfl := Except.ok.inj done
      rfl

/-- A painter with new settings remembers no text and has no list of spans, and is the same otherwise. -/
theorem eq_of_configure {painter configured : Painter} {theme : Option Theme} {mode : Option String}
    (done : painter.configure theme mode = .ok configured) :
    ∃ cache : Cache, cache.text = none ∧ configured = { painter with cache, edition := none } := by
  rw [configure] at done
  cases known : painter.cache.configure theme mode with
  | error fault =>
    rw [known] at done
    exact absurd done nofun
  | ok cache =>
    rw [known] at done
    exact ⟨cache, text_of_configure known, (Except.ok.inj done).symm⟩

/-- A painter that remembers no text and has no list of spans is coherent if its formats are right. -/
theorem coherent_of_text_eq_none {painter : Painter} {screen : Screen}
    (forgotten : painter.cache.text = none) (unlisted : painter.edition = none)
    (agrees : painter.formats.Agrees screen) : painter.Coherent screen where
  indexed _ remembered := absurd (forgotten.symm.trans remembered) nofun
  held known := absurd ((congrArg Option.isSome forgotten).symm.trans known) nofun
  bounded _ listed := absurd (unlisted.symm.trans listed) nofun
  formats := agrees

theorem coherent_of_new {theme : Option Theme} {mode : Option String} {debug : Bool}
    {made : Painter × Effects} (new : Painter.new theme mode debug = .ok made) (screen : Screen) :
    made.1.Coherent screen := by
  obtain ⟨theme, mode, same⟩ := eq_of_new new
  rw [same]
  exact coherent_of_text_eq_none rfl rfl (FormatMemo.agrees_nil screen)

theorem coherent_of_configure {painter configured : Painter} {screen : Screen}
    (agrees : painter.formats.Agrees screen) {theme : Option Theme} {mode : Option String}
    (done : painter.configure theme mode = .ok configured) : configured.Coherent screen := by
  obtain ⟨cache, forgotten, rfl⟩ := eq_of_configure done
  exact coherent_of_text_eq_none forgotten rfl agrees

/-- Whether neither reading nor painting ends a property of a painter and of the number of repaints that
are queued. -/
structure Maintained (screen : Screen) (property : Painter → Nat → Prop) : Prop where
  refresh : ∀ {painter : Painter} {queue : Nat}, property painter queue → ∀ document,
    property (painter.refresh document).1 (queue + (painter.refresh document).2.repaintsAsked)
  paintAsRead : ∀ {painter : Painter} {queue : Nat}, property painter queue →
    ∀ document block text, property (painter.paintAsRead screen document block text).2 queue
  distrust : ∀ {painter : Painter} {queue : Nat}, property painter queue →
    property painter.distrust queue
  forgetFormats : ∀ {painter : Painter} {queue : Nat}, property painter queue →
    property painter.forgetFormats queue
  dequeue : ∀ {painter : Painter} {queue : Nat}, property painter (queue + 1) →
    property { painter with repaintPending := false } queue

/-- Whether no step of a painter ends a property, which new painters have. A painter distrusts its
reading after new settings. -/
structure Kept (screen : Screen) (property : Painter → Nat → Prop) : Prop
    extends Maintained screen property where
  configure : ∀ {painter configured : Painter} {queue : Nat} {theme : Option Theme}
    {mode : Option String}, property painter queue →
    painter.configure theme mode = .ok configured → property configured.distrust queue
  new : ∀ {theme : Option Theme} {mode : Option String} {debug : Bool} {made : Painter × Effects},
    Painter.new theme mode debug = .ok made → property made.1 0

/-- To paint a block takes at most a reading and the painting itself. -/
theorem Maintained.paint {screen : Screen} {property : Painter → Nat → Prop}
    (maintained : Maintained screen property) {painter : Painter} {queue : Nat} (holds : property painter queue)
    (document : Document) (block : Nat) :
    property (painter.paint screen document block).2.1
      (queue + (painter.paint screen document block).2.2.repaintsAsked) := by
  rw [Painter.paint]
  dsimp only
  split
  · exact maintained.paintAsRead (maintained.refresh holds document) document block _
  · exact maintained.paintAsRead holds document block _

theorem Maintained.paintAll {screen : Screen} {property : Painter → Nat → Prop}
    (maintained : Maintained screen property) {painter : Painter} {queue : Nat} (holds : property painter queue)
    (document : Document) (blocks : List Nat) :
    property (painter.paintAll screen document blocks).2.1
      (queue + (painter.paintAll screen document blocks).2.2.repaintsAsked) := by
  induction blocks generalizing painter queue with
  | nil => exact holds
  | cons block blocks ih =>
    have later := ih (maintained.paint holds document block)
    rw [Nat.add_assoc] at later
    exact later

theorem kept_coherent (screen : Screen) :
    Kept screen fun painter _ => painter.Coherent screen where
  new made := coherent_of_new made screen
  refresh coherent document := (refresh_upToDate coherent document).1.toCoherent
  paintAsRead coherent document block text := (coherent.paintAsRead document block text).2.1
  distrust coherent := coherent.distrust
  forgetFormats coherent :=
    ⟨coherent.indexed, coherent.held, coherent.bounded, FormatMemo.agrees_nil screen⟩
  configure coherent done := (coherent_of_configure coherent.formats done).distrust
  dequeue coherent := ⟨coherent.indexed, coherent.held, coherent.bounded, coherent.formats⟩

end Painter

namespace Session

open Painter (Maintained Kept)

/-- Whether the painter of a session, if there is one, has a property together with the number of
repaints that are queued, among them `left` ones that are about to be run. -/
def Holds (session : Session) (property : Painter → Nat → Prop) (left : Nat) : Prop :=
  ∀ painter, session.painter = some painter → property painter (session.queue + left)

/-- The repaints that are queued are those that a run of the queue is about to run. -/
theorem holds_queued {session : Session} {property : Painter → Nat → Prop}
    (holds : session.Holds property 0) :
    ({ session with queue := 0 } : Session).Holds property session.queue := by
  intro painter known
  rw [Nat.zero_add]
  exact holds painter known

theorem holds_withPainter {session : Session} {property : Painter → Nat → Prop}
    (holds : session.Holds property 0) {use : Painter → Session × Report}
    (keeps : ∀ painter, property painter session.queue → (use painter).1.Holds property 0) :
    (session.withPainter use).1.Holds property 0 := by
  rw [withPainter]
  cases known : session.painter with
  | none => exact holds
  | some painter => exact keeps painter (holds painter known)

section Maintained

variable {screen : Screen} {property : Painter → Nat → Prop}
  (maintained : Maintained screen property)
include maintained

theorem holds_paintWith (session : Session) {painter : Painter} {left : Nat}
    (holds : property painter (session.queue + left)) (blocks : List Nat) :
    (session.paintWith screen painter blocks).1.Holds property left := by
  rw [paintWith]
  split
  · rintro other ⟨⟩
    have painted := maintained.paintAll holds session.document blocks
    rw [Nat.add_right_comm] at painted
    exact painted
  · rintro other ⟨⟩
    exact holds

theorem holds_repaintWith_of_distrust (session : Session) {painter : Painter} {left : Nat}
    (holds : property painter.distrust (session.queue + left)) :
    (session.repaintWith screen painter).1.Holds property left := by
  rw [repaintWith]
  split
  · exact holds_paintWith maintained session holds _
  · rintro other ⟨⟩
    exact holds

theorem holds_repaintWith (session : Session) {painter : Painter} {left : Nat}
    (holds : property painter (session.queue + left)) :
    (session.repaintWith screen painter).1.Holds property left :=
  holds_repaintWith_of_distrust maintained session (maintained.distrust holds)

theorem holds_runRepaint {session : Session} {left : Nat}
    (holds : session.Holds property (left + 1)) :
    (session.runRepaint screen).1.Holds property left := by
  rw [runRepaint]
  cases known : session.painter with
  | none =>
    intro painter same
    exact absurd (known.symm.trans same) nofun
  | some painter =>
    have ready := maintained.dequeue (holds painter known)
    dsimp only
    split
    · exact holds_repaintWith maintained session ready
    · rintro other ⟨⟩
      exact ready

/-- The repaints that are run are counted with those that are queued meanwhile. -/
theorem holds_runRepaints {session : Session} {count : Nat}
    (holds : session.Holds property count) :
    (session.runRepaints screen count).1.Holds property 0 := by
  induction count generalizing session with
  | zero => exact holds
  | succ count ih => exact ih (holds_runRepaint maintained holds)

theorem holds_tick {session : Session} (holds : session.Holds property 0) :
    (({ session with queue := 0 } : Session).runRepaints screen session.queue).1.Holds property 0 :=
  holds_runRepaints maintained (holds_queued holds)

end Maintained

/-- Whether the painters that an action goes on with have a property before it is done: new ones, those
with new settings, or the painter as it is. -/
def Ready (surroundings : Surroundings) (session : Session) (property : Painter → Nat → Prop) :
    Action → Prop
  | .construct theme mode debug => ∀ made, Painter.new theme mode debug = .ok made →
      property made.1 0
  | .create theme mode debug =>
    let settings := surroundings.settings
    ∀ made, Painter.new (some (theme.getD settings.palette.toTheme))
      (some (mode.getD settings.containment.name)) (debug.getD settings.debug) = .ok made →
      property made.1 0
  | .setTheme theme => ∀ painter, session.painter = some painter → ∀ configured,
      painter.forgetFormats.configure theme none = .ok configured →
      property configured.distrust session.queue
  | .setContainment mode => ∀ painter, session.painter = some painter → ∀ configured,
      painter.configure none mode = .ok configured → property configured.distrust session.queue
  | .replace _ | .edit _ _ | .paint _ | .rehighlight | .tick | .detach => session.Holds property 0

section Step

variable {surroundings : Surroundings} {session : Session} {property : Painter → Nat → Prop}

theorem holds_start {made : Except Fault (Painter × Effects)}
    (ready : ∀ pair, made = .ok pair → property pair.1 0)
    (refused : ∀ fault, (session.start made).2.fault = some fault → session.Holds property 0) :
    (session.start made).1.Holds property 0 := by
  cases known : made with
  | error fault =>
    rw [known] at refused
    exact refused fault rfl
  | ok pair =>
    rintro painter ⟨⟩
    exact ready pair known

theorem holds_reconfigure (maintained : Maintained surroundings.screen property) {painter : Painter}
    {theme : Option Theme} {mode : Option String}
    (ready : ∀ configured, painter.configure theme mode = .ok configured →
      property configured.distrust session.queue)
    (refused : ∀ fault,
      (session.reconfigure surroundings.screen painter theme mode).2.fault = some fault →
        session.Holds property 0) :
    (session.reconfigure surroundings.screen painter theme mode).1.Holds property 0 := by
  rw [reconfigure] at refused ⊢
  cases known : painter.configure theme mode with
  | error fault =>
    rw [known] at refused
    exact refused fault rfl
  | ok configured => exact holds_repaintWith_of_distrust maintained session (ready configured known)

/-- After an action its painter has a property that those it went on with had, or the session is as it
was because a fault stopped the action. -/
theorem step_holds_of_ready (maintained : Maintained surroundings.screen property) {action : Action}
    (ready : session.Ready surroundings property action)
    (refused : ∀ fault, (session.step surroundings action).2.fault = some fault →
      session.Holds property 0) :
    (session.step surroundings action).1.Holds property 0 := by
  cases action with
  | construct theme mode debug => exact holds_start ready refused
  | create theme mode debug => exact holds_start ready refused
  | replace blocks => exact ready
  | edit block text => exact ready
  | paint blocks =>
    apply holds_withPainter ready
    exact fun painter holds => holds_paintWith maintained session holds blocks
  | rehighlight =>
    apply holds_withPainter ready
    exact fun painter holds => holds_repaintWith maintained session holds
  | setTheme theme =>
    rw [step, withPainter] at refused ⊢
    cases known : session.painter with
    | none => exact fun painter same => absurd (known.symm.trans same) nofun
    | some painter =>
      rw [known] at refused
      exact holds_reconfigure maintained (ready painter known) refused
  | setContainment mode =>
    rw [step, withPainter] at refused ⊢
    cases known : session.painter with
    | none => exact fun painter same => absurd (known.symm.trans same) nofun
    | some painter =>
      rw [known] at refused
      exact holds_reconfigure maintained (ready painter known) refused
  | tick => exact holds_tick maintained ready
  | detach => exact ready

theorem ready_of_kept (kept : Kept surroundings.screen property) (holds : session.Holds property 0)
    (action : Action) : session.Ready surroundings property action := by
  cases action with
  | construct theme mode debug => exact fun _ => kept.new
  | create theme mode debug => exact fun _ => kept.new
  | setTheme theme =>
    exact fun painter known _ => kept.configure (kept.forgetFormats (holds painter known))
  | setContainment mode => exact fun painter known _ => kept.configure (holds painter known)
  | replace | edit | paint | rehighlight | tick | detach => exact holds

/-- What no step of a painter ends holds after each action. -/
theorem step_holds (kept : Kept surroundings.screen property) (holds : session.Holds property 0)
    (action : Action) : (session.step surroundings action).1.Holds property 0 :=
  step_holds_of_ready kept.toMaintained (ready_of_kept kept holds action) fun _ _ => holds

end Step

/-- What no step of a painter ends holds after each run of actions. -/
theorem run_holds {surroundings : Surroundings} {property : Painter → Nat → Prop}
    (kept : Kept surroundings.screen property) {session : Session}
    (holds : session.Holds property 0) (actions : List Action) :
    (session.run surroundings actions).1.Holds property 0 := by
  induction actions generalizing session with
  | nil => exact holds
  | cons action actions ih => exact ih (step_holds kept holds action)

theorem holds_initial (property : Painter → Nat → Prop) : ({} : Session).Holds property 0 :=
  fun _ known => absurd known nofun

def Coherent (session : Session) (screen : Screen) : Prop :=
  session.Holds (fun painter _ => painter.Coherent screen) 0

theorem step_coherent (surroundings : Surroundings) {session : Session}
    (coherent : session.Coherent surroundings.screen) (action : Action) :
    (session.step surroundings action).1.Coherent surroundings.screen :=
  step_holds (Painter.kept_coherent _) coherent action

/-- Every run of actions keeps the painter coherent. -/
theorem run_coherent (surroundings : Surroundings) {session : Session}
    (coherent : session.Coherent surroundings.screen) (actions : List Action) :
    (session.run surroundings actions).1.Coherent surroundings.screen :=
  run_holds (Painter.kept_coherent _) coherent actions

theorem coherent_initial (screen : Screen) : ({} : Session).Coherent screen :=
  holds_initial _

/-- What a session with a painter and its document paints. -/
theorem paintWith_attached {session : Session} (attached : session.attached = true) (screen : Screen)
    (painter : Painter) (blocks : List Nat) :
    let painted := painter.paintAll screen session.document blocks
    (session.paintWith screen painter blocks).1.painter = some painted.2.1 ∧
      (session.paintWith screen painter blocks).1.document = session.document ∧
      (session.paintWith screen painter blocks).1.attached = true ∧
      (session.paintWith screen painter blocks).1.queue =
        session.queue + painted.2.2.repaintsAsked ∧
      (session.paintWith screen painter blocks).2.painted = painted.1 := by
  rw [paintWith, if_pos attached]
  exact ⟨rfl, rfl, attached, rfl, rfl⟩

/-- A repaint reads the document, and paints every block by that reading. -/
theorem repaintWith_attached {session : Session} (attached : session.attached = true)
    {screen : Screen} {painter : Painter} (coherent : painter.Coherent screen) :
    let blocks := List.range session.document.blocks.length
    let after := session.repaintWith screen painter
    after.2.painted =
        (painter.refresh session.document).1.paintingsOf screen session.document blocks ∧
      after.1.document = session.document ∧ after.1.attached = true ∧
      after.1.queue = session.queue +
        (painter.distrust.paintAll screen session.document blocks).2.2.repaintsAsked ∧
      ∃ next, after.1.painter = some next ∧ next.SameSettings painter ∧
        (session.document.blocks ≠ [] → next.UpToDate screen session.document) := by
  obtain ⟨next, document, still, queue, painted⟩ := paintWith_attached attached screen
    painter.distrust (List.range session.document.blocks.length)
  obtain ⟨formats, current⟩ := Painter.paintAll_distrust coherent session.document
    (List.range session.document.blocks.length)
  have settings := (Painter.paintAll_coherent coherent.distrust session.document
    (List.range session.document.blocks.length)).2
  rw [repaintWith, if_pos attached]
  refine ⟨painted.trans formats, document, still, queue, _, next,
    ⟨settings.theme, settings.mode⟩, fun filled => current ?_⟩
  rw [Ne, List.range_eq_nil, List.length_eq_zero_iff]
  exact filled

/-- A full repaint reads the document, and paints every block by that reading. -/
theorem step_rehighlight (surroundings : Surroundings) {session : Session} {painter : Painter}
    (known : session.painter = some painter) (coherent : painter.Coherent surroundings.screen)
    (attached : session.attached = true) :
    let after := session.step surroundings .rehighlight
    after.2.painted = (painter.refresh session.document).1.paintingsOf surroundings.screen
        session.document (List.range session.document.blocks.length) ∧
      after.1.document = session.document ∧ after.1.attached = true ∧
      ∃ next, after.1.painter = some next ∧ next.SameSettings painter ∧
        (session.document.blocks ≠ [] →
          next.UpToDate surroundings.screen session.document) := by
  obtain ⟨painted, document, still, -, next⟩ := repaintWith_attached attached coherent
  rw [step, withPainter, known]
  exact ⟨painted, document, still, next⟩

end Session

end KotlinHighlight.Editor
