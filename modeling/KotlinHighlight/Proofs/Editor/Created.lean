import KotlinHighlight.Proofs.Editor.Strokes
import KotlinHighlight.Proofs.LineIndex
import KotlinHighlight.Proofs.Settings.Choices
import KotlinHighlight.Proofs.Settings.File

/-! # Painters made from the settings file

A painter that is made without any options takes them from the settings file. Whatever the file holds,
it can be made, and until another theme is given everything is painted in the colors that the settings
choose (`create_paints_choices`).
-/

namespace KotlinHighlight.Editor

open Cache (Setup)

/-- The formats of a block by the spans of a text in a mode, each in the color that settings choose for
the category of the span. -/
def chosenFormats (settings : Settings) (mode : Containment) (screen : Screen) (text : Text)
    (document : Document) (block : Nat) : List FormatRange :=
  let index := LineIndex.ofSpans text (Highlight.spans mode settings.palette text)
  let start : Int := document.position block
  let stop := start + (document.blocks.getD block []).length
  (index.spansBetween start stop).map fun piece =>
    let color := settings.chosenColor piece.span.category
    { start := piece.start
      length := piece.stop - piece.start
      format :=
        { foreground := if screen.isValidColor color then color else "#000000"
          italic := piece.span.category == .comment
          background := none } }

/-- Under the theme of some settings a block has the colors that they choose. -/
theorem formats_paintingUnder_toTheme (settings : Settings) (mode : Containment) (screen : Screen)
    (text : Text) (document : Document) (block : Nat) :
    (paintingUnder ⟨settings.palette.toTheme, mode⟩ screen text document block).formats =
      chosenFormats settings mode screen text document block := by
  rw [paintingUnder, Setup.spans, settings.palette_toTheme_palette]
  apply List.map_congr_left
  intro piece member
  have spanned := LineIndex.span_mem_of_mem_spansBetween member
  rw [Highlight.color_of_mem_spans spanned, settings.color_palette]

/-- Whether an action leaves the theme of the painter. -/
def Action.keepsTheme : Action → Bool
  | .construct _ _ _ | .create _ _ _ | .setTheme _ => false
  | .replace _ | .edit _ _ | .paint _ | .rehighlight | .setContainment _ | .tick | .detach => true

theorem Action.theme_settle {action : Action} (keeps : action.keepsTheme = true)
    (surroundings : Surroundings) (setup : Option Setup) :
    (action.settle surroundings setup).map (·.theme) = setup.map (·.theme) := by
  cases action with
  | construct | create | setTheme => exact absurd keeps nofun
  | setContainment mode =>
    have laid : ∀ setup : Setup, (setup.overlay none mode).theme = setup.theme := by
      intro setup
      cases mode with
      | none => rfl
      | some name =>
        rw [Setup.overlay]
        split
        · rfl
        · rfl
    rw [settle, Option.map_map]
    exact congrArg (Option.map · setup) (funext laid)
  | replace | edit | paint | rehighlight | tick | detach => rfl

theorem theme_foldl_settle {actions : List Action}
    (keep : ∀ action ∈ actions, action.keepsTheme = true) (surroundings : Surroundings)
    (setup : Option Setup) :
    (actions.foldl (fun setup action => action.settle surroundings setup) setup).map (·.theme) =
      setup.map (·.theme) := by
  induction actions generalizing setup with
  | nil => rfl
  | cons action actions ih =>
    obtain ⟨first, more⟩ := List.forall_mem_cons.mp keep
    exact (ih more _).trans (action.theme_settle first surroundings setup)

namespace Session

variable {session : Session} {surroundings : Surroundings}

/-- Without options a painter can be made of any settings. It has their colors and their mode. -/
theorem step_create (session : Session) (surroundings : Surroundings) :
    let settings := surroundings.settings
    let created := session.step surroundings (.create none none none)
    created.2.fault = none ∧ created.1.attached = true ∧
      created.1.document = session.document ∧
      ∃ painter, created.1.painter = some painter ∧ painter.Settled surroundings.screen ∧
        painter.setup = ⟨settings.palette.toTheme, settings.containment⟩ := by
  intro settings created
  have given := Painter.madeSetup_eq (some settings.palette.toTheme)
    (some settings.containment.name) settings.debug
  have named : Containment.ofName? settings.containment.name = some settings.containment :=
    Containment.ofName?_eq_some_iff.mpr rfl
  rw [madeSetup, Option.bind_some, named] at given
  have whole : created = session.start (Painter.new (some settings.palette.toTheme)
    (some settings.containment.name) settings.debug) := rfl
  rw [whole]
  cases new : Painter.new (some settings.palette.toTheme) (some settings.containment.name)
      settings.debug with
  | error fault =>
    rw [new] at given
    exact absurd given (Option.some_ne_none _)
  | ok made =>
    rw [new] at given
    exact ⟨rfl, rfl, rfl, made.1, rfl, (Painter.kept_settled _).new new,
      (Option.some.inj given).symm⟩

/-- Take a painter with the colors of some settings, and actions that give it no other theme. The last
of them paints every block in the colors that the settings choose. -/
theorem strokes_paint_choices {settings : Settings} {mode : Containment} {painter : Painter}
    (known : session.painter = some painter) (settled : painter.Settled surroundings.screen)
    (given : painter.setup = ⟨settings.palette.toTheme, mode⟩) {actions : List Action}
    (keep : ∀ action ∈ actions, action.keepsTheme = true) {action : Action}
    (keeps : action.keepsTheme = true) :
    let reached := (session.run surroundings actions).1
    let document := reached.document
    ∀ stroke ∈ reached.strokes surroundings action, ∃ reading,
      (stroke.next surroundings.screen document).reading = some reading ∧
        (stroke.painting surroundings.screen document).formats =
          chosenFormats settings stroke.painter.cache.mode surroundings.screen reading.text
            document stroke.block := by
  intro reached document stroke member
  have kept := Painter.kept_settled surroundings.screen
  have holds : session.Holds (fun painter _ => painter.Settled surroundings.screen) 0 :=
    fun other same => Option.some.inj (known.symm.trans same) ▸ settled
  obtain ⟨-, trusts⟩ := strokes_hold kept.toMaintained
    (ready_of_kept kept (run_holds kept holds actions) action) stroke member
  have start : session.Holds (Painter.HasSetup (some painter.setup)) 0 :=
    fun other same => congrArg (Option.map Painter.setup) (known.symm.trans same)
  obtain ⟨_, inForce⟩ := strokes_hold (Painter.maintained_hasSetup _ _)
    (ready_hasSetup (run_hasSetup_of_holds surroundings start actions) action) stroke member
  have theme : stroke.painter.setup.theme = settings.palette.toTheme := by
    have same := action.theme_settle keeps surroundings (actions.foldl
      (fun setup action => action.settle surroundings setup) (some painter.setup))
    rw [inForce, theme_foldl_settle keep, given] at same
    exact Option.some.inj same
  obtain ⟨reading, next, -, painting⟩ := trusts.stroke document stroke.block
  refine ⟨reading, next, ?_⟩
  rw [← formats_paintingUnder_toTheme, ← theme]
  exact congrArg Painting.formats painting

/-- Take any content of the settings file, or no file. Each number that is loaded is short enough to be
put into words. Without options a painter can be made for any document, and its mode is the heuristic
just if the settings name it. As long as no other theme is given, every stroke of an action is in the
colors that the settings choose for the categories.

Any settings give the colors that they choose, also when these are handed on as a theme, and nothing is
changed by leaving out color members that give no color. -/
theorem create_paints_choices (file : SettingsFile) {settings : Settings}
    (loaded : file.load = settings) (screen : Screen) (session : Session) :
    let surroundings : Surroundings := ⟨settings, screen⟩
    let created := session.step surroundings (.create none none none)
    (∀ number, Json.int number ∈ (Json.object settings).parts →
        (Decimal.digitsOf number.natAbs).length ≤ Decimal.digitLimit) ∧
      created.2.fault = none ∧ created.1.attached = true ∧ created.1.document = session.document ∧
      (∃ painter, created.1.painter = some painter ∧
        painter.cache.mode = settings.containment) ∧
      (settings.containment = .heuristic ↔ ∃ text,
        (settings.get? Settings.containmentKey).bind Json.text? = some text ∧
          Settings.folded text = "heuristic") ∧
      (∀ actions : List Action, (∀ action ∈ actions, action.keepsTheme = true) →
        ∀ action : Action, action.keepsTheme = true →
          let reached := (created.1.run surroundings actions).1
          let document := reached.document
          let strokes := reached.strokes surroundings action
          reached.PaintsBy screen (reached.step surroundings action).2 strokes ∧
            ∀ stroke ∈ strokes, ∃ reading,
              (stroke.next screen document).reading = some reading ∧
                (stroke.painting screen document).formats =
                  chosenFormats settings stroke.painter.cache.mode screen reading.text document
                    stroke.block) ∧
      ∀ other : Settings, (∀ category, other.palette.color category = other.chosenColor category) ∧
        other.palette.toTheme.palette = other.palette ∧
        ∀ keep : Units × Json → Bool,
          (∀ entry ∈ other.colorMembers, (Settings.colorChoice? entry).isSome = true →
            keep entry = true) →
          (other.trimmed keep).palette = other.palette ∧
            (other.trimmed keep).containment = other.containment ∧
            (other.trimmed keep).debug = other.debug := by
  intro surroundings created
  obtain ⟨made, attached, document, painter, known, settled, setup⟩ :=
    session.step_create surroundings
  refine ⟨?_, made, attached, document, ⟨painter, known, congrArg Setup.mode setup⟩,
    settings.containment_eq_heuristic_iff, ?_, ?_⟩
  · intro number inside
    rw [← loaded] at inside
    exact of_decide_eq_true (file.isRead_load.short _ inside)
  · intro actions keep action keeps reached document strokes
    exact ⟨reached.paintsBy_step surroundings action,
      strokes_paint_choices known settled setup keep keeps⟩
  · intro other
    exact ⟨other.color_palette, other.palette_toTheme_palette, fun keep => other.trimmed_eq⟩

/-- Settings with a color for one category, one that is refused, and one for no category at all. -/
theorem create_paints_choices_of_keyword :
    let text := "\x7b\"highlight_colors\": \x7b\" Keyword\": \"#abc\", \"keyword\": \"red\", " ++
      "\"word\": \"#000\"\x7d, \"highlight_containment\": \"Heuristic \"\x7d"
    let settings := SettingsFile.settingsOf text.toList
    let screen : Screen := ⟨fun _ => true⟩
    let surroundings : Surroundings := ⟨settings, screen⟩
    let created := ({} : Session).step surroundings (.create none none none)
    let reached := (created.1.run surroundings
      [.replace [['v', 'a', 'l']], .setContainment (some "scan")]).1
    let strokes := reached.strokes surroundings .rehighlight
    (SettingsFile.ofText text.toList).load = settings ∧ settings.containment = .heuristic ∧
      settings.chosenColor .keyword = "#AABBCC" ∧
      (settings.trimmed fun entry => (Settings.colorChoice? entry).isSome).palette =
        settings.palette ∧
      created.2.fault = none ∧ strokes.map (·.block) = [0] ∧
      ∀ stroke ∈ strokes, ∃ reading,
        (stroke.next screen reached.document).reading = some reading ∧
          (stroke.painting screen reached.document).formats =
            chosenFormats settings stroke.painter.cache.mode screen reading.text
              reached.document stroke.block := by
  intro text settings screen surroundings created reached strokes
  have loaded : (SettingsFile.ofText text.toList).load = settings := SettingsFile.load_ofText _
  have shape : settings.containment = .heuristic ∧ settings.chosenColor .keyword = "#AABBCC" ∧
      strokes.map (·.block) = [0] := by
    decide +kernel
  clear_value settings
  obtain ⟨heuristic, keyword, blocks⟩ := shape
  obtain ⟨-, made, -, -, -, -, paints, others⟩ := create_paints_choices _ loaded screen {}
  obtain ⟨trimmed, -⟩ := (others settings).2.2 _ fun _ _ gives => gives
  obtain ⟨-, colored⟩ := paints [.replace [['v', 'a', 'l']], .setContainment (some "scan")]
    (by decide) .rehighlight rfl
  exact ⟨loaded, heuristic, keyword, trimmed, made, blocks, colored⟩

end Session

end KotlinHighlight.Editor
