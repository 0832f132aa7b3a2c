import KotlinHighlight.Proofs.Cache
import KotlinHighlight.Proofs.Editor.Session

/-! # The settings in force

Which theme and which mode are in force after some actions follows from the actions alone: those that a
painter is made with, and later ones laid over them unless they are refused (`setupAfter`). The painter
of a session has these settings at all times (`run_hasSetup`).
-/

namespace KotlinHighlight.Editor

open Cache (Setup)

/-- The settings that a new painter is given, if it can be made. -/
def madeSetup (theme : Option Theme) (mode : Option String) : Option Setup :=
  (mode.bind Containment.ofName?).map fun mode => ⟨theme.getD [], mode⟩

/-- The settings in force after an action, by those before it. -/
def Action.settle (surroundings : Surroundings) (setup : Option Setup) : Action → Option Setup
  | .construct theme mode _ => (madeSetup theme mode).or setup
  | .create theme mode _ =>
    let settings := surroundings.settings
    (madeSetup (some (theme.getD settings.palette.toTheme))
      (some (mode.getD settings.containment.name))).or setup
  | .setTheme theme => setup.map (·.overlay theme none)
  | .setContainment mode => setup.map (·.overlay none mode)
  | .replace _ | .edit _ _ | .paint _ | .rehighlight | .tick | .detach => setup

/-- The settings in force after some actions. -/
def setupAfter (surroundings : Surroundings) (actions : List Action) : Option Setup :=
  actions.foldl (fun setup action => action.settle surroundings setup) none

theorem setupAfter_concat (surroundings : Surroundings) (actions : List Action) (action : Action) :
    setupAfter surroundings (actions ++ [action]) =
      action.settle surroundings (setupAfter surroundings actions) := by
  rw [setupAfter, List.foldl_append]
  rfl

namespace Painter

def setup (painter : Painter) : Setup :=
  ⟨painter.cache.theme.getD [], painter.cache.mode⟩

theorem indexFor_eq (painter : Painter) (text : Text) :
    painter.indexFor text = LineIndex.ofSpans text (painter.setup.spans (some text)) :=
  rfl

/-- A painter can be made just if its mode is known, and it has the settings that it is given. -/
theorem madeSetup_eq (theme : Option Theme) (mode : Option String) (debug : Bool) :
    match Painter.new theme mode debug with
    | .ok made => madeSetup theme mode = some made.1.setup
    | .error _ => madeSetup theme mode = none := by
  have given : (theme.bind Cache.themeOf).getD [] = theme.getD [] := by
    cases theme with
    | none => rfl
    | some theme => exact Cache.getD_themeOf theme
  rw [Painter.new, Cache.new, Containment.parse, madeSetup]
  cases mode.bind Containment.ofName? with
  | none => rfl
  | some mode => exact congrArg (fun theme => some (Setup.mk theme mode)) given.symm

/-- New settings are laid over the old ones, or refused and then of no effect. -/
theorem overlay_setup (painter : Painter) (theme : Option Theme) (mode : Option String) :
    match painter.configure theme mode with
    | .ok configured => painter.setup.overlay theme mode = configured.setup
    | .error _ => painter.setup.overlay theme mode = painter.setup := by
  have laid : (theme.elim painter.cache.theme Cache.themeOf).getD [] =
      theme.getD (painter.cache.theme.getD []) := by
    cases theme with
    | none => rfl
    | some theme => exact Cache.getD_themeOf theme
  rw [Painter.configure, Cache.configure_eq]
  cases mode with
  | none => exact congrArg (Setup.mk · painter.cache.mode) laid.symm
  | some name =>
    rw [Setup.overlay]
    dsimp only
    cases Containment.ofName? name with
    | none => rfl
    | some mode => exact congrArg (Setup.mk · mode) laid.symm

def HasSetup (setup : Option Setup) (painter : Painter) (_queue : Nat) : Prop :=
  setup = some painter.setup

theorem setup_refresh (painter : Painter) (document : Document) :
    (painter.refresh document).1.setup = painter.setup := by
  rw [setup, cache_refresh, Cache.ask]
  split
  · rfl
  · rfl

theorem maintained_hasSetup (screen : Screen) (setup : Option Setup) :
    Maintained screen (HasSetup setup) where
  refresh {painter _} has document := has.trans (congrArg some (painter.setup_refresh document).symm)
  paintAsRead has _ _ _ := has
  distrust has := has
  forgetFormats has := has
  dequeue has := has

end Painter

namespace Session

open Painter (HasSetup)

variable {surroundings : Surroundings} {session : Session} {setup : Option Setup}

/-- The painters that an action goes on with have the settings that are in force after it. -/
theorem ready_hasSetup (holds : session.Holds (HasSetup setup) 0) (action : Action) :
    session.Ready surroundings (HasSetup (action.settle surroundings setup)) action := by
  have made : ∀ (theme : Option Theme) (mode : Option String) (debug : Bool) (made),
      Painter.new theme mode debug = .ok made →
        (madeSetup theme mode).or setup = some made.1.setup := by
    intro theme mode debug made new
    have given := Painter.madeSetup_eq theme mode debug
    rw [new] at given
    rw [given]
    rfl
  have configured : ∀ (painter configured : Painter) (theme : Option Theme) (mode : Option String),
      setup = some painter.setup → painter.configure theme mode = .ok configured →
        setup.map (·.overlay theme mode) = some configured.setup := by
    rintro painter configured theme mode rfl done
    have laid := painter.overlay_setup theme mode
    rw [done] at laid
    exact congrArg some laid
  cases action with
  | construct theme mode debug => exact fun pair => made theme mode debug pair
  | create theme mode debug => exact fun pair => made _ _ _ pair
  | setTheme theme =>
    exact fun painter known next => configured painter.forgetFormats next theme none
      (holds painter known)
  | setContainment mode =>
    exact fun painter known next => configured painter next none mode (holds painter known)
  | replace | edit | paint | rehighlight | tick | detach => exact holds

theorem configure_of_fault {screen : Screen} {painter : Painter} {theme : Option Theme}
    {mode : Option String} {fault : Fault}
    (refused : (session.reconfigure screen painter theme mode).2.fault = some fault) :
    painter.configure theme mode = .error fault := by
  rw [reconfigure] at refused
  cases known : painter.configure theme mode with
  | error fault' =>
    rw [known] at refused
    exact congrArg Except.error (Option.some.inj refused)
  | ok configured =>
    rw [known] at refused
    dsimp only at refused
    rw [repaintWith, paintWith] at refused
    split at refused <;> exact absurd refused.symm (Option.some_ne_none fault)

theorem settle_of_fault (holds : session.Holds (HasSetup setup) 0) {action : Action} {fault : Fault}
    (refused : (session.step surroundings action).2.fault = some fault) :
    session.Holds (HasSetup (action.settle surroundings setup)) 0 := by
  have made : ∀ (theme : Option Theme) (mode : Option String) (debug : Bool),
      (session.start (Painter.new theme mode debug)).2.fault = some fault →
        (madeSetup theme mode).or setup = setup := by
    intro theme mode debug refused
    have given := Painter.madeSetup_eq theme mode debug
    cases known : Painter.new theme mode debug with
    | ok made =>
      rw [known] at refused
      exact absurd refused.symm (Option.some_ne_none fault)
    | error fault =>
      rw [known] at given
      rw [given]
      rfl
  have configured : ∀ (painter : Painter) (theme : Option Theme) (mode : Option String),
      setup = some painter.setup →
      (session.reconfigure surroundings.screen painter theme mode).2.fault = some fault →
        setup.map (·.overlay theme mode) = setup := by
    rintro painter theme mode rfl refused
    have laid := painter.overlay_setup theme mode
    rw [configure_of_fault refused] at laid
    exact congrArg some laid
  intro painter known
  have has : setup = some painter.setup := holds painter known
  cases action with
  | construct theme mode debug => exact (made theme mode debug refused).trans has
  | create theme mode debug => exact (made _ _ _ refused).trans has
  | setTheme theme =>
    rw [step, withPainter, known] at refused
    exact (configured painter.forgetFormats theme none has refused).trans has
  | setContainment mode =>
    rw [step, withPainter, known] at refused
    exact (configured painter none mode has refused).trans has
  | replace | edit | paint | rehighlight | tick | detach => exact has

/-- After an action the painter has the settings that are then in force. -/
theorem step_hasSetup (holds : session.Holds (HasSetup setup) 0) (action : Action) :
    (session.step surroundings action).1.Holds (HasSetup (action.settle surroundings setup)) 0 :=
  step_holds_of_ready (Painter.maintained_hasSetup _ _) (ready_hasSetup holds action)
    fun _ => settle_of_fault holds

/-- After some more actions the painter has the settings that they leave in force. -/
theorem run_hasSetup_of_holds (surroundings : Surroundings) {session : Session}
    {setup : Option Setup} (holds : session.Holds (HasSetup setup) 0) (actions : List Action) :
    (session.run surroundings actions).1.Holds
      (HasSetup (actions.foldl (fun setup action => action.settle surroundings setup) setup)) 0 := by
  induction actions generalizing session setup with
  | nil => exact holds
  | cons action actions ih => exact ih (step_hasSetup holds action)

/-- After every run of actions the painter has the settings that are then in force. -/
theorem run_hasSetup (surroundings : Surroundings) (actions : List Action) :
    (Session.run surroundings {} actions).1.Holds (HasSetup (setupAfter surroundings actions)) 0 :=
  run_hasSetup_of_holds surroundings (holds_initial _) actions

end Session

end KotlinHighlight.Editor
