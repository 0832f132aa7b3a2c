import KotlinHighlight.Proofs.Editor.Setup

/-! # Strokes

An action paints stroke by stroke, each time one block with the painter as the strokes before have left
it. A painter keeps its text, its spans and its index apart, and they are replaced at different moments;
yet whenever it paints, all of them are those of the text that it read last, under the settings in force
(`strokes_by_last_reading`).
-/

namespace KotlinHighlight.Editor

open Cache (Setup)

/-- What a block of a document looks like by the spans of a text under some settings. -/
def paintingUnder (setup : Setup) (screen : Screen) (text : Text) (document : Document)
    (block : Nat) : Painting :=
  let index := LineIndex.ofSpans text (setup.spans (some text))
  let start : Int := document.position block
  let stop := start + (document.blocks.getD block []).length
  { block
    formats := (index.spansBetween start stop).map fun piece =>
      { start := piece.start
        length := piece.stop - piece.start
        format :=
          { foreground := if screen.isValidColor piece.span.color then piece.span.color else "#000000"
            italic := piece.span.category == .comment
            background := none } }
    state := some (.ofCategory (index.endCategory (index.lineAt stop))) }

/-- One block that is painted, and the painter as it comes to the block. -/
structure Stroke where
  painter : Painter
  block : Nat

namespace Stroke

/-- Whether the painter has to read the document for the stroke. -/
def reads (stroke : Stroke) (document : Document) : Bool :=
  stroke.painter.isStale document (document.position stroke.block)
    (document.blocks.getD stroke.block [])

def painting (stroke : Stroke) (screen : Screen) (document : Document) : Painting :=
  (stroke.painter.paint screen document stroke.block).1

def next (stroke : Stroke) (screen : Screen) (document : Document) : Painter :=
  (stroke.painter.paint screen document stroke.block).2.1

end Stroke

namespace Painter

def strokes (painter : Painter) (screen : Screen) (document : Document) : List Nat → List Stroke
  | [] => []
  | block :: blocks =>
    let stroke : Stroke := ⟨painter, block⟩
    stroke :: (stroke.next screen document).strokes screen document blocks

theorem paintAll_eq_strokes (painter : Painter) (screen : Screen) (document : Document)
    (blocks : List Nat) : (painter.paintAll screen document blocks).1 =
      (painter.strokes screen document blocks).map (·.painting screen document) := by
  induction blocks generalizing painter with
  | nil => rfl
  | cons block blocks ih => exact congrArg (_ :: ·) (ih _)

/-- What neither reading nor painting ends is there at each stroke. -/
theorem Maintained.strokes {screen : Screen} {property : Painter → Nat → Prop}
    (maintained : Maintained screen property) {painter : Painter} {queue : Nat}
    (holds : property painter queue) (document : Document) (blocks : List Nat) :
    ∀ stroke ∈ painter.strokes screen document blocks, ∃ queue, property stroke.painter queue := by
  induction blocks generalizing painter queue with
  | nil => exact List.forall_mem_nil _
  | cons block blocks ih =>
    rw [Painter.strokes, List.forall_mem_cons]
    exact ⟨⟨queue, holds⟩, ih (maintained.paint holds document block)⟩

/-- Whether a painter that trusts its reading remembers the text of it. -/
structure Settled (painter : Painter) (screen : Screen) : Prop
    extends painter.Coherent screen where
  trusted : painter.stale = false →
    ∃ reading, painter.reading = some reading ∧ painter.cache.text = some reading.text

/-- No step of a painter leaves it with a reading that it trusts and does not remember. -/
theorem kept_settled (screen : Screen) : Kept screen fun painter _ => painter.Settled screen where
  new made := by
    refine ⟨coherent_of_new made screen, fun trusts => ?_⟩
    obtain ⟨theme, mode, same⟩ := eq_of_new made
    rw [same] at trusts
    exact absurd trusts nofun
  refresh settled document := by
    have current := (refresh_upToDate settled.toCoherent document).1
    exact ⟨current.toCoherent, fun _ => ⟨_, current.reading, current.cached⟩⟩
  paintAsRead settled document block text :=
    ⟨(settled.toCoherent.paintAsRead document block text).2.1, settled.trusted⟩
  distrust settled := ⟨settled.toCoherent.distrust, nofun⟩
  forgetFormats settled :=
    ⟨⟨settled.indexed, settled.held, settled.bounded, FormatMemo.agrees_nil screen⟩, settled.trusted⟩
  configure settled done := ⟨(coherent_of_configure settled.formats done).distrust, nofun⟩
  dequeue settled :=
    ⟨⟨settled.indexed, settled.held, settled.bounded, settled.formats⟩, settled.trusted⟩

/-- A painter that comes to a block has a reading for it, the last one or a new one, and its index is
that of the text of this reading. -/
theorem Settled.freshen {painter : Painter} {screen : Screen} (settled : painter.Settled screen)
    (document : Document) (block : Nat) :
    ∃ reading, (painter.freshen document block).reading = some reading ∧
      (if painter.isStale document (document.position block) (document.blocks.getD block []) then
        reading = ⟨document.plainText, document.characterCount⟩
      else painter.reading = some reading) ∧
      (painter.freshen document block).index = painter.indexFor reading.text := by
  rw [Painter.freshen]
  cases stale : painter.isStale document (document.position block)
      (document.blocks.getD block []) with
  | true =>
    obtain ⟨current, same⟩ := refresh_upToDate settled.toCoherent document
    refine ⟨_, current.reading, rfl, ?_⟩
    rw [if_pos rfl, current.index, indexFor, indexFor, same.mode, same.palette]
  | false =>
    have trusts : painter.stale = false := by
      rw [isStale] at stale
      split at stale
      · exact absurd stale.symm Bool.false_ne_true
      · rw [Bool.or_eq_false_iff, Bool.or_eq_false_iff] at stale
        exact stale.1.1
    obtain ⟨reading, known, remembered⟩ := settled.trusted trusts
    exact ⟨reading, known, known, settled.indexed reading.text remembered⟩

/-- A stroke paints a block by the reading that the painter has for it. -/
theorem Settled.stroke {painter : Painter} {screen : Screen} (settled : painter.Settled screen)
    (document : Document) (block : Nat) :
    let stroke : Stroke := ⟨painter, block⟩
    ∃ reading, (stroke.next screen document).reading = some reading ∧
      (if stroke.reads document then reading = ⟨document.plainText, document.characterCount⟩
      else painter.reading = some reading) ∧
      stroke.painting screen document =
        paintingUnder painter.setup screen reading.text document block := by
  intro stroke
  obtain ⟨painted, next⟩ := painter.paint_eq screen document block
  obtain ⟨reading, known, last, index⟩ := settled.freshen document block
  obtain ⟨coherent, -⟩ := freshen_coherent settled.toCoherent document block
  obtain ⟨painting, -⟩ := coherent.paintAsRead document block (document.blocks.getD block [])
  refine ⟨reading, ?_, last, ?_⟩
  · rw [Stroke.next, next]
    exact known
  · rw [Stroke.painting, painted, painting, paintingOf, index, indexFor_eq]
    rfl

end Painter

namespace Session

/-- The strokes of a painter that paints some blocks. Without its document it does nothing. -/
def strokesWith (session : Session) (screen : Screen) (painter : Painter) (blocks : List Nat) :
    List Stroke :=
  if session.attached then painter.strokes screen session.document blocks else []

def strokesOfRepaint (session : Session) (screen : Screen) (painter : Painter) : List Stroke :=
  session.strokesWith screen painter.distrust (List.range session.document.blocks.length)

/-- A painter without its document repaints nothing. -/
theorem strokesOfRepaint_of_detached {session : Session} (detached : ¬session.attached = true)
    (screen : Screen) (painter : Painter) : session.strokesOfRepaint screen painter = [] :=
  if_neg detached

/-- The strokes of a full repaint with new settings. -/
def strokesOfChange (session : Session) (screen : Screen) : Except Fault Painter → List Stroke
  | .ok configured => session.strokesOfRepaint screen configured
  | .error _ => []

def strokesOfQueued (session : Session) (screen : Screen) : List Stroke :=
  match session.painter with
  | none => []
  | some painter => session.strokesOfRepaint screen { painter with repaintPending := false }

def strokesOfRepaints (session : Session) (screen : Screen) : Nat → List Stroke
  | 0 => []
  | count + 1 =>
    session.strokesOfQueued screen ++
      (session.runRepaint screen).1.strokesOfRepaints screen count

def strokes (surroundings : Surroundings) (session : Session) : Action → List Stroke
  | .paint blocks =>
    session.painter.elim [] fun painter => session.strokesWith surroundings.screen painter blocks
  | .rehighlight => session.painter.elim [] (session.strokesOfRepaint surroundings.screen)
  | .setTheme theme =>
    session.painter.elim [] fun painter =>
      session.strokesOfChange surroundings.screen (painter.forgetFormats.configure theme none)
  | .setContainment mode =>
    session.painter.elim [] fun painter =>
      session.strokesOfChange surroundings.screen (painter.configure none mode)
  | .tick =>
    ({ session with queue := 0 } : Session).strokesOfRepaints surroundings.screen session.queue
  | .construct _ _ _ | .create _ _ _ | .replace _ | .edit _ _ | .detach => []

/-- Whether a report has the paintings of some strokes. Without the document there are no strokes, and
the report has no formats. -/
structure PaintsBy (session : Session) (screen : Screen) (report : Report)
    (strokes : List Stroke) : Prop where
  attached : session.attached = true →
    report.painted = strokes.map (·.painting screen session.document)
  detached : session.attached = false →
    strokes = [] ∧ ∀ painting ∈ report.painted, painting.formats = []

theorem paintsBy_of_painted_eq_nil {session : Session} {screen : Screen} {report : Report}
    (nothing : report.painted = []) : session.PaintsBy screen report [] where
  attached _ := nothing
  detached _ := ⟨rfl, by rw [nothing]; exact nofun⟩

theorem PaintsBy.andThen {session : Session} {screen : Screen} {first second : Report}
    {strokes more : List Stroke} (one : session.PaintsBy screen first strokes)
    (other : session.PaintsBy screen second more) :
    session.PaintsBy screen (first.andThen second) (strokes ++ more) where
  attached attached := by
    rw [Report.andThen, List.map_append, one.attached attached, other.attached attached]
  detached detached := by
    obtain ⟨rfl, unpainted⟩ := one.detached detached
    obtain ⟨rfl, none'⟩ := other.detached detached
    exact ⟨rfl, fun painting painted => (List.mem_append.mp painted).elim (unpainted painting)
      (none' painting)⟩

theorem paintWith_leaves (session : Session) (screen : Screen) (painter : Painter)
    (blocks : List Nat) : (session.paintWith screen painter blocks).1.document = session.document ∧
      (session.paintWith screen painter blocks).1.attached = session.attached := by
  rw [paintWith]
  split
  · exact ⟨rfl, rfl⟩
  · exact ⟨rfl, rfl⟩

theorem runRepaint_leaves (session : Session) (screen : Screen) :
    (session.runRepaint screen).1.document = session.document ∧
      (session.runRepaint screen).1.attached = session.attached := by
  rw [runRepaint]
  cases session.painter with
  | none => exact ⟨rfl, rfl⟩
  | some painter =>
    dsimp only
    rw [repaintWith]
    split
    · exact session.paintWith_leaves screen _ _
    · exact ⟨rfl, rfl⟩

section PaintsBy

variable (session : Session) (screen : Screen)

theorem paintsBy_paintWith (painter : Painter) (blocks : List Nat) :
    session.PaintsBy screen (session.paintWith screen painter blocks).2
      (session.strokesWith screen painter blocks) := by
  rw [paintWith, strokesWith]
  split
  · rename_i attached
    refine ⟨fun _ => painter.paintAll_eq_strokes screen session.document blocks, fun detached => ?_⟩
    exact absurd (detached.symm.trans attached) Bool.false_ne_true
  · rename_i detached
    refine ⟨fun attached => absurd attached detached, fun _ => ⟨rfl, ?_⟩⟩
    exact List.forall_mem_map.mpr fun _ _ => rfl

theorem paintsBy_repaintWith (painter : Painter) :
    session.PaintsBy screen (session.repaintWith screen painter).2
      (session.strokesOfRepaint screen painter) := by
  rw [repaintWith]
  split
  · exact session.paintsBy_paintWith screen painter.distrust _
  · rename_i detached
    rw [strokesOfRepaint_of_detached detached]
    exact paintsBy_of_painted_eq_nil rfl

theorem paintsBy_reconfigure (painter : Painter) (theme : Option Theme) (mode : Option String) :
    session.PaintsBy screen (session.reconfigure screen painter theme mode).2
      (session.strokesOfChange screen (painter.configure theme mode)) := by
  rw [reconfigure]
  cases painter.configure theme mode with
  | error fault => exact paintsBy_of_painted_eq_nil rfl
  | ok configured => exact session.paintsBy_repaintWith screen configured

/-- A queued repaint paints what a full repaint does. -/
theorem paintsBy_runRepaint :
    session.PaintsBy screen (session.runRepaint screen).2 (session.strokesOfQueued screen) := by
  rw [runRepaint, strokesOfQueued]
  cases session.painter with
  | none => exact paintsBy_of_painted_eq_nil rfl
  | some painter =>
    dsimp only
    split
    · exact session.paintsBy_repaintWith screen _
    · rename_i detached
      rw [strokesOfRepaint_of_detached detached]
      exact paintsBy_of_painted_eq_nil rfl

theorem paintsBy_runRepaints (count : Nat) :
    session.PaintsBy screen (session.runRepaints screen count).2
      (session.strokesOfRepaints screen count) := by
  induction count generalizing session with
  | zero => exact paintsBy_of_painted_eq_nil rfl
  | succ count ih =>
    have rest := ih (session.runRepaint screen).1
    obtain ⟨document, attached⟩ := session.runRepaint_leaves screen
    refine (session.paintsBy_runRepaint screen).andThen ⟨fun still => ?_, fun gone => ?_⟩
    · exact (rest.attached (attached.trans still)).trans (by rw [document])
    · exact rest.detached (attached.trans gone)

theorem paintsBy_withPainter {use : Painter → Session × Report} {strokes : Painter → List Stroke}
    (paints : ∀ painter, session.PaintsBy screen (use painter).2 (strokes painter)) :
    session.PaintsBy screen (session.withPainter use).2 (session.painter.elim [] strokes) := by
  rw [withPainter]
  cases session.painter with
  | none => exact paintsBy_of_painted_eq_nil rfl
  | some painter => exact paints painter

end PaintsBy

theorem paintsBy_start (session : Session) (screen : Screen)
    (made : Except Fault (Painter × Effects)) :
    session.PaintsBy screen (session.start made).2 [] := by
  cases made with
  | ok made => exact paintsBy_of_painted_eq_nil rfl
  | error fault => exact paintsBy_of_painted_eq_nil rfl

/-- An action paints its strokes. -/
theorem paintsBy_step (surroundings : Surroundings) (session : Session) (action : Action) :
    session.PaintsBy surroundings.screen (session.step surroundings action).2
      (session.strokes surroundings action) := by
  cases action with
  | construct theme mode debug => exact session.paintsBy_start _ _
  | create theme mode debug => exact session.paintsBy_start _ _
  | replace blocks => exact paintsBy_of_painted_eq_nil rfl
  | edit block text => exact paintsBy_of_painted_eq_nil rfl
  | paint blocks =>
    exact session.paintsBy_withPainter _ fun painter => session.paintsBy_paintWith _ painter blocks
  | rehighlight => exact session.paintsBy_withPainter _ (session.paintsBy_repaintWith _)
  | setTheme theme =>
    exact session.paintsBy_withPainter _ fun painter =>
      session.paintsBy_reconfigure _ painter.forgetFormats theme none
  | setContainment mode =>
    exact session.paintsBy_withPainter _ fun painter =>
      session.paintsBy_reconfigure _ painter none mode
  | tick =>
    have paints := ({ session with queue := 0 } : Session).paintsBy_runRepaints
      surroundings.screen session.queue
    exact ⟨paints.attached, paints.detached⟩
  | detach => exact paintsBy_of_painted_eq_nil rfl

section Hold

variable {screen : Screen} {property : Painter → Nat → Prop}
  (maintained : Painter.Maintained screen property)
include maintained

theorem strokesOfRepaint_hold (session : Session) {painter : Painter} {queue : Nat}
    (holds : property painter.distrust queue) :
    ∀ stroke ∈ session.strokesOfRepaint screen painter, ∃ queue, property stroke.painter queue := by
  rw [strokesOfRepaint, strokesWith]
  split
  · exact maintained.strokes holds session.document _
  · exact List.forall_mem_nil _

theorem strokesOfRepaints_hold {session : Session} {count : Nat}
    (holds : session.Holds property count) :
    ∀ stroke ∈ session.strokesOfRepaints screen count, ∃ queue, property stroke.painter queue := by
  induction count generalizing session with
  | zero => exact List.forall_mem_nil _
  | succ count ih =>
    intro stroke member
    rw [strokesOfRepaints, List.mem_append] at member
    rcases member with now | later
    · rw [strokesOfQueued] at now
      cases known : session.painter with
      | none =>
        rw [known] at now
        exact absurd now nofun
      | some painter =>
        rw [known] at now
        have ready := maintained.distrust (maintained.dequeue (holds painter known))
        exact strokesOfRepaint_hold maintained session ready stroke now
    · exact ih (holds_runRepaint maintained holds) stroke later

end Hold

/-- What neither reading nor painting ends is there at each stroke of an action, if the painters that
the action goes on with have it. -/
theorem strokes_hold {surroundings : Surroundings} {session : Session}
    {property : Painter → Nat → Prop}
    (maintained : Painter.Maintained surroundings.screen property) {action : Action}
    (ready : session.Ready surroundings property action) :
    ∀ stroke ∈ session.strokes surroundings action, ∃ queue, property stroke.painter queue := by
  have changed : ∀ (painter : Painter) (theme : Option Theme) (mode : Option String),
      (∀ configured, painter.configure theme mode = .ok configured →
        property configured.distrust session.queue) →
      ∀ stroke ∈ session.strokesOfChange surroundings.screen (painter.configure theme mode),
        ∃ queue, property stroke.painter queue := by
    intro painter theme mode holds
    cases done : painter.configure theme mode with
    | error fault => exact List.forall_mem_nil _
    | ok configured => exact strokesOfRepaint_hold maintained session (holds configured done)
  have used : ∀ {strokes : Painter → List Stroke},
      (∀ painter, session.painter = some painter →
        ∀ stroke ∈ strokes painter, ∃ queue, property stroke.painter queue) →
      ∀ stroke ∈ session.painter.elim [] strokes, ∃ queue, property stroke.painter queue := by
    intro strokes hold
    cases known : session.painter with
    | none => exact List.forall_mem_nil _
    | some painter => exact hold painter known
  cases action with
  | construct | create | replace | edit | detach => exact List.forall_mem_nil _
  | paint blocks =>
    refine used fun painter known => ?_
    rw [strokesWith]
    split
    · exact maintained.strokes (ready painter known) session.document blocks
    · exact List.forall_mem_nil _
  | rehighlight =>
    exact used fun painter known =>
      strokesOfRepaint_hold maintained session (maintained.distrust (ready painter known))
  | setTheme theme =>
    exact used fun painter known => changed painter.forgetFormats theme none (ready painter known)
  | setContainment mode =>
    exact used fun painter known => changed painter none mode (ready painter known)
  | tick => exact strokesOfRepaints_hold maintained (holds_queued ready)

/-- Take any session. With its document an action paints just its strokes, and without it no formats at
all. Each stroke paints its block as the text of one reading looks like under the settings that are in
force after the action. This is a new reading if the painter reads the document for the stroke, and
otherwise the last one that it made. -/
theorem strokes_by_last_reading (surroundings : Surroundings) (actions : List Action)
    {session : Session} (reached : (Session.run surroundings {} actions).1 = session)
    (action : Action) :
    let screen := surroundings.screen
    let document := session.document
    let painted := (session.step surroundings action).2.painted
    let strokes := session.strokes surroundings action
    (session.attached = true → painted = strokes.map (·.painting screen document)) ∧
      (session.attached = false → ∀ painting ∈ painted, painting.formats = []) ∧
      ∀ stroke ∈ strokes, ∃ setup reading,
        setupAfter surroundings (actions ++ [action]) = some setup ∧
          (stroke.next screen document).reading = some reading ∧
          (if stroke.reads document then reading = ⟨document.plainText, document.characterCount⟩
          else stroke.painter.reading = some reading) ∧
          stroke.painting screen document =
            paintingUnder setup screen reading.text document stroke.block := by
  intro screen document painted strokes
  have paints := session.paintsBy_step surroundings action
  refine ⟨paints.attached, fun detached => (paints.detached detached).2, ?_⟩
  intro stroke member
  have kept := Painter.kept_settled screen
  have settled := run_holds kept (holds_initial _) actions
  have setup := run_hasSetup surroundings actions
  rw [reached] at settled setup
  obtain ⟨-, trusts⟩ := strokes_hold kept.toMaintained (ready_of_kept kept settled action)
    stroke member
  obtain ⟨_, inForce⟩ := strokes_hold (Painter.maintained_hasSetup _ _)
    (ready_hasSetup setup action) stroke member
  obtain ⟨reading, next, last, painting⟩ := trusts.stroke document stroke.block
  refine ⟨stroke.painter.setup, reading, ?_, next, last, painting⟩
  rw [setupAfter_concat]
  exact inForce

/-- A theme that is set, a mode that is refused, and then an edit of one block, after which the painter
does not read the document for the other block. -/
theorem strokes_by_last_reading_of_unnoticed_edit :
    let surroundings : Surroundings := ⟨[], ⟨fun _ => true⟩⟩
    let theme : Theme := { Palette.default with comment := "#0A0A0A" }.toTheme
    let actions : List Action := [.construct none (some "scan") false,
      .replace [['/', '*'], ['1']], .rehighlight, .setTheme (some theme),
      .setContainment (some "both"), .edit 0 ['2', '2']]
    let session := (Session.run surroundings {} actions).1
    session.attached = true ∧
      (session.strokes surroundings (.paint [1])).map (·.reads session.document) = [false] ∧
      (session.step surroundings (.paint [1])).2.painted =
        [paintingUnder ⟨theme, .scan⟩ surroundings.screen ['/', '*', '\n', '1']
          session.document 1] := by
  intro surroundings theme actions session
  have shape : session.attached = true ∧
      (session.strokes surroundings (.paint [1])).map (fun stroke => (stroke.block,
        stroke.reads session.document, stroke.painter.reading.map (·.text))) =
        [(1, false, some ['/', '*', '\n', '1'])] := by
    decide +kernel
  have inForce : setupAfter surroundings (actions ++ [.paint [1]]) = some ⟨theme, .scan⟩ := rfl
  have reached : (Session.run surroundings {} actions).1 = session := rfl
  clear_value session
  obtain ⟨painted, -, shown⟩ := strokes_by_last_reading surroundings actions reached (.paint [1])
  obtain ⟨attached, single⟩ := shape
  obtain ⟨stroke, only, facts⟩ := List.map_eq_singleton_iff.mp single
  rw [Prod.mk.injEq, Prod.mk.injEq] at facts
  obtain ⟨block, unread, before⟩ := facts
  obtain ⟨setup, reading, force, -, last, painting⟩ := shown stroke (only ▸ List.mem_singleton_self _)
  rw [if_neg (Bool.eq_false_iff.mp unread)] at last
  obtain rfl : setup = ⟨theme, .scan⟩ := Option.some.inj (force.symm.trans inForce)
  rw [last, Option.map_some, Option.some.injEq] at before
  rw [before, block] at painting
  refine ⟨attached, by rw [only, List.map_singleton, unread], (painted attached).trans ?_⟩
  rw [only, List.map_singleton]
  exact congrArg (fun painting => [painting]) painting

end Session

end KotlinHighlight.Editor
