import KotlinHighlight.Editor.Painter
import KotlinHighlight.Settings

/-! # Editing sessions

A session is a document, the painter of its blocks, and the repaints that this painter has queued. Its
actions edit the document, paint blocks, change settings and run the queue. Each action reports the
lines printed, the blocks painted, and the fault that stopped it. A painter that is replaced leaves the
session with the repaints that it has queued: those are its own, and the new painter runs none of them.
-/

namespace KotlinHighlight.Editor

/-- What stays the same during a session. -/
structure Surroundings where
  settings : Settings
  screen : Screen

/-- A document and its painter. While the painter is detached it has no document. -/
structure Session where
  document : Document := Document.blank
  painter : Option Painter := none
  attached : Bool := false
  queue : Nat := 0

inductive Action where
  /-- A new painter with the given options. -/
  | construct (theme : Option Theme) (mode : Option String) (debug : Bool)
  /-- A new painter that takes the options that are not given from the settings. -/
  | create (theme : Option Theme) (mode : Option String) (debug : Option Bool)
  /-- Another text, block by block. -/
  | replace (blocks : List Text)
  /-- Another text in one block. -/
  | edit (block : Nat) (text : Text)
  /-- Paints some blocks. -/
  | paint (blocks : List Nat)
  /-- Paints every block after reading the document anew. -/
  | rehighlight
  /-- Another theme, or the same one again, and then a full repaint. -/
  | setTheme (theme : Option Theme)
  /-- Another containment mode, or the same one again, and then a full repaint. -/
  | setContainment (mode : Option String)
  /-- Runs the repaints that are queued. -/
  | tick
  /-- Takes the document from the painter. -/
  | detach

structure Report where
  printed : List String := []
  painted : List Painting := []
  fault : Option Fault := none

def Report.andThen (first second : Report) : Report :=
  ⟨first.printed ++ second.printed, first.painted ++ second.painted, first.fault <|> second.fault⟩

namespace Session

/-- The session with another painter for its document, which printed something. -/
def start (session : Session) (made : Except Fault (Painter × Effects)) : Session × Report :=
  match made with
  | .ok (painter, effects) =>
    ({ session with painter := some painter, attached := true, queue := 0 },
      { printed := effects.printed })
  | .error fault => (session, { fault := some fault })

/-- Paints some blocks with a painter. Without its document the painter does nothing to them. -/
def paintWith (session : Session) (screen : Screen) (painter : Painter) (blocks : List Nat) :
    Session × Report :=
  if session.attached then
    let (painted, painter, effects) := painter.paintAll screen session.document blocks
    ({ session with painter := some painter, queue := session.queue + effects.repaintsAsked },
      { printed := effects.printed, painted })
  else
    ({ session with painter := some painter },
      { painted := blocks.map fun block => ⟨block, [], none⟩ })

def repaintWith (session : Session) (screen : Screen) (painter : Painter) : Session × Report :=
  if session.attached then
    session.paintWith screen painter.distrust (List.range session.document.blocks.length)
  else ({ session with painter := some painter.distrust }, {})

def reconfigure (session : Session) (screen : Screen) (painter : Painter) (theme : Option Theme)
    (mode : Option String) : Session × Report :=
  match painter.configure theme mode with
  | .ok painter => session.repaintWith screen painter
  | .error fault => (session, { fault := some fault })

def runRepaint (session : Session) (screen : Screen) : Session × Report :=
  match session.painter with
  | none => (session, {})
  | some painter =>
    let painter := { painter with repaintPending := false }
    if session.attached then session.repaintWith screen painter
    else ({ session with painter := some painter }, {})

def runRepaints (session : Session) (screen : Screen) : Nat → Session × Report
  | 0 => (session, {})
  | count + 1 =>
    let (session, report) := session.runRepaint screen
    let (session, more) := session.runRepaints screen count
    (session, report.andThen more)

def withPainter (session : Session) (use : Painter → Session × Report) : Session × Report :=
  match session.painter with
  | some painter => use painter
  | none => (session, {})

/-- The session after an action, and the report of it. -/
def step (surroundings : Surroundings) (session : Session) : Action → Session × Report
  | .construct theme mode debug => session.start (Painter.new theme mode debug)
  | .create theme mode debug =>
    let settings := surroundings.settings
    session.start (Painter.new (some (theme.getD settings.palette.toTheme))
      (some (mode.getD settings.containment.name)) (debug.getD settings.debug))
  | .replace blocks => ({ session with document := ⟨blocks⟩ }, {})
  | .edit block text => ({ session with document := session.document.setBlock block text }, {})
  | .paint blocks =>
    session.withPainter fun painter => session.paintWith surroundings.screen painter blocks
  | .rehighlight => session.withPainter (session.repaintWith surroundings.screen)
  | .setTheme theme =>
    session.withPainter fun painter =>
      session.reconfigure surroundings.screen painter.forgetFormats theme none
  | .setContainment mode =>
    session.withPainter fun painter => session.reconfigure surroundings.screen painter none mode
  | .tick =>
    let count := session.queue
    ({ session with queue := 0 } : Session).runRepaints surroundings.screen count
  | .detach => ({ session with attached := false }, {})

def run (surroundings : Surroundings) (session : Session) : List Action → Session × List Report
  | [] => (session, [])
  | action :: actions =>
    let (session, report) := session.step surroundings action
    let (session, reports) := session.run surroundings actions
    (session, report :: reports)

end Session

end KotlinHighlight.Editor
