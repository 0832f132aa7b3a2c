import KotlinHighlight.Editor.Session
import KotlinHighlight.Proofs.Cache

/-! # Settings that are refused

New settings are assigned one after the other, and a fault ends that without taking anything back. The
mode is checked before the first assignment, so a mode that is refused leaves a cache and a painter just
as they were (`Cache.run_configureInPlace`, `Painter.run_configureInPlace`). A session therefore goes on
as if the mode had never been asked for (`refusal_changes_nothing`).
-/

namespace KotlinHighlight

theorem Containment.ofName?_eq_none {name : String} (unknown : ∀ mode : Containment, name ≠ mode.name) :
    ofName? name = none :=
  Option.eq_none_iff_forall_ne_some.mpr fun mode known => unknown mode (ofName?_eq_some_iff.mp known)

namespace Cache

theorem configure_of_unknown (cache : Cache) (theme : Option Theme) {name : String}
    (unknown : ∀ mode : Containment, name ≠ mode.name) :
    cache.configure theme (some name) = .error (.unknownContainment (some name)) := by
  rw [configure_eq]
  dsimp only
  rw [Containment.ofName?_eq_none unknown]

/-- New settings for a cache, assigned one after the other. What was assigned before a fault stays. -/
def configureInPlace (theme : Option Theme) (mode : Option String) : EStateM Fault Cache Unit := do
  if let some name := mode then
    match Containment.ofName? name with
    | some mode => modify fun cache => { cache with mode }
    | none => throw (.unknownContainment (some name))
  if let some theme := theme then
    modify fun cache => { cache with theme := themeOf theme }
  modify clear

theorem run_configureInPlace (theme : Option Theme) (mode : Option String) (cache : Cache) :
    (configureInPlace theme mode).run cache =
      match cache.configure theme mode with
      | .ok configured => .ok () configured
      | .error fault => .error fault cache := by
  rw [configure_eq]
  cases mode with
  | none => cases theme <;> rfl
  | some name =>
    simp only [configureInPlace]
    cases Containment.ofName? name with
    | none => rfl
    | some mode => cases theme <;> rfl

end Cache

namespace Editor

namespace Painter

theorem configure_of_unknown (painter : Painter) (theme : Option Theme) {name : String}
    (unknown : ∀ mode : Containment, name ≠ mode.name) :
    painter.configure theme (some name) = .error (.unknownContainment (some name)) := by
  rw [configure, painter.cache.configure_of_unknown theme unknown]
  rfl

/-- A change of the cache of a painter. What it changed before a fault stays. -/
def onCache (change : EStateM Fault Cache Unit) : EStateM Fault Painter Unit := fun painter =>
  match change.run painter.cache with
  | .ok _ cache => .ok () { painter with cache }
  | .error fault cache => .error fault { painter with cache }

/-- New settings for a painter, which then knows no spans. What was assigned before a fault stays. -/
def configureInPlace (theme : Option Theme) (mode : Option String) : EStateM Fault Painter Unit := do
  onCache (Cache.configureInPlace theme mode)
  modify fun painter => { painter with edition := none }

theorem run_configureInPlace (theme : Option Theme) (mode : Option String) (painter : Painter) :
    (configureInPlace theme mode).run painter =
      match painter.configure theme mode with
      | .ok configured => .ok () configured
      | .error fault => .error fault painter := by
  have inCache : (onCache (Cache.configureInPlace theme mode)).run painter =
      match painter.cache.configure theme mode with
      | .ok cache => .ok () { painter with cache }
      | .error fault => .error fault painter := by
    rw [EStateM.run, onCache, Cache.run_configureInPlace]
    cases painter.cache.configure theme mode with
    | ok cache => rfl
    | error fault => rfl
  rw [configureInPlace, EStateM.run_bind, inCache, configure]
  cases painter.cache.configure theme mode with
  | ok cache => rfl
  | error fault => rfl

end Painter

namespace Session

/-- New settings are those that are assigned in place, and a session goes on with the painter as the
assignments left it. -/
theorem reconfigure_eq_inPlace {session : Session} {painter : Painter}
    (made : session.painter = some painter) (screen : Screen) (theme : Option Theme)
    (mode : Option String) :
    session.reconfigure screen painter theme mode =
      match (Painter.configureInPlace theme mode).run painter with
      | .ok _ painter => session.repaintWith screen painter
      | .error fault painter =>
        ({ session with painter := some painter }, { fault := some fault }) := by
  rw [reconfigure, Painter.run_configureInPlace]
  cases painter.configure theme mode with
  | ok configured => rfl
  | error fault =>
    dsimp only
    rw [← made]

theorem run_append (surroundings : Surroundings) (session : Session) (first second : List Action) :
    session.run surroundings (first ++ second) =
      (((session.run surroundings first).1.run surroundings second).1,
        (session.run surroundings first).2 ++
          ((session.run surroundings first).1.run surroundings second).2) := by
  induction first generalizing session with
  | nil => rfl
  | cons action actions ih =>
    have next := ih (session.step surroundings action).1
    simp only [List.cons_append, run, next]

theorem length_run (surroundings : Surroundings) (session : Session) (actions : List Action) :
    (session.run surroundings actions).2.length = actions.length := by
  induction actions generalizing session with
  | nil => rfl
  | cons action actions ih => exact congrArg Nat.succ (ih (session.step surroundings action).1)

/-- An action that leaves a session as it was can be left out. The session ends the same, and each of the
other actions has the report that it has without it. -/
theorem run_append_cons_of_unchanged (surroundings : Surroundings) (session : Session)
    {before : List Action} {action : Action} {report : Report}
    (unchanged : (session.run surroundings before).1.step surroundings action =
      ((session.run surroundings before).1, report)) (after : List Action) :
    let through := session.run surroundings (before ++ action :: after)
    let around := session.run surroundings (before ++ after)
    through.1 = around.1 ∧
      ∃ earlier later, earlier.length = before.length ∧ around.2 = earlier ++ later ∧
        through.2 = earlier ++ report :: later := by
  intro through around
  generalize reached : session.run surroundings before = start at unchanged
  have throughParts : through = ((start.1.run surroundings after).1,
      start.2 ++ report :: (start.1.run surroundings after).2) := by
    refine (run_append surroundings session before (action :: after)).trans ?_
    rw [reached, run, unchanged]
  have aroundParts : around = ((start.1.run surroundings after).1,
      start.2 ++ (start.1.run surroundings after).2) := by
    refine (run_append surroundings session before after).trans ?_
    rw [reached]
  rw [throughParts, aroundParts]
  exact ⟨rfl, start.2, _, reached ▸ length_run surroundings session before, rfl, rfl⟩

/-- An unknown mode faults a session with a painter and changes nothing of it. -/
theorem step_setContainment_of_unknown (surroundings : Surroundings) {session : Session}
    (made : session.painter.isSome = true) {name : String}
    (unknown : ∀ mode : Containment, name ≠ mode.name) :
    session.step surroundings (.setContainment (some name)) =
      (session, { fault := some (.unknownContainment (some name)) }) := by
  obtain ⟨painter, known⟩ := Option.isSome_iff_exists.mp made
  rw [step, withPainter, known]
  dsimp only
  rw [reconfigure_eq_inPlace known, Painter.run_configureInPlace,
    painter.configure_of_unknown none unknown]
  dsimp only
  rw [← known]

/-- A mode that is unknown is refused before anything is assigned: a cache keeps its settings, what it
remembers and its counts, a painter keeps what it knows, and a session with a painter paints nothing and
queues nothing. However it goes on, it reports what it would without the attempt and ends as it would
without it, its counts included. -/
theorem refusal_changes_nothing (surroundings : Surroundings) {name : String}
    (unknown : ∀ mode : Containment, name ≠ mode.name) :
    let fault := Fault.unknownContainment (some name)
    (∀ (cache : Cache) (theme : Option Theme),
      cache.configure theme (some name) = .error fault ∧
        (Cache.configureInPlace theme (some name)).run cache = .error fault cache) ∧
    (∀ painter : Painter,
      painter.configure none (some name) = .error fault ∧
        (Painter.configureInPlace none (some name)).run painter = .error fault painter) ∧
    ∀ before after : List Action, (run surroundings {} before).1.painter.isSome = true →
      let session := (run surroundings {} before).1
      let attempt : Action := .setContainment (some name)
      let attempted := run surroundings {} (before ++ attempt :: after)
      let unattempted := run surroundings {} (before ++ after)
      session.step surroundings attempt = (session, { fault := some fault }) ∧
        attempted.1 = unattempted.1 ∧
        ∃ earlier later, earlier.length = before.length ∧ unattempted.2 = earlier ++ later ∧
          attempted.2 = earlier ++ { fault := some fault } :: later := by
  intro fault
  refine ⟨fun cache theme => ?_, fun painter => ?_, ?_⟩
  · have refused := cache.configure_of_unknown theme unknown
    rw [Cache.run_configureInPlace, refused]
    exact ⟨rfl, rfl⟩
  · have refused := painter.configure_of_unknown none unknown
    rw [Painter.run_configureInPlace, refused]
    exact ⟨rfl, rfl⟩
  intro before after made session attempt attempted unattempted
  have refused : session.step surroundings attempt = (session, { fault := some fault }) :=
    step_setContainment_of_unknown surroundings made unknown
  exact ⟨refused, run_append_cons_of_unchanged surroundings {} refused after⟩

/-- A mode that is refused between an edit that is still to be read and the paint after it. -/
theorem refusal_changes_nothing_between_edits :
    let surroundings : Surroundings := ⟨[], ⟨fun _ => true⟩⟩
    let before : List Action :=
      [.construct none (some "scan") false, .replace [['/', '*'], ['1']], .rehighlight]
    let after : List Action := [.edit 0 ['2'], .paint [1]]
    (∀ mode : Containment, "both" ≠ mode.name) ∧
      (run surroundings {} before).1.painter.isSome = true ∧
      (run surroundings {} (before ++ .setContainment (some "both") :: after)).1 =
        (run surroundings {} (before ++ after)).1 := by
  intro surroundings before after
  have unknown : ∀ mode : Containment, "both" ≠ mode.name := by
    intro mode
    cases mode <;> decide
  have made : (run surroundings {} before).1.painter.isSome = true := by rfl
  obtain ⟨_, _, goesOn⟩ := refusal_changes_nothing surroundings unknown
  exact ⟨unknown, made, (goesOn before after made).2.1⟩

end Session

end Editor

end KotlinHighlight
