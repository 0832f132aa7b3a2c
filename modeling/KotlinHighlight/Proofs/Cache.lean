import KotlinHighlight.Cache

/-! # What a cache answers

A cache that follows some settings has them as its own, and the spans that it keeps are those of the
text that it remembers under them. Each request leads to a cache that follows the settings as they
are after the request (`Follows.serve`). So whatever was requested before, a text is answered with
the spans that it has under the settings of that moment (`answer_eq_spans`).
-/

namespace KotlinHighlight.Cache

inductive Request where
  | ask (text : Option Text)
  | clear
  | configure (theme : Option Theme) (mode : Option String)

/-- The cache after a request. A request that is refused leaves it as it was. -/
def serve (cache : Cache) : Request → Cache
  | .ask text => (cache.ask text).2
  | .clear => cache.clear
  | .configure theme mode =>
    match cache.configure theme mode with
    | .ok configured => configured
    | .error _ => cache

def after (cache : Cache) (requests : List Request) : Cache :=
  requests.foldl serve cache

/-- The wishes for colors and the containment mode that are in force. -/
structure Setup where
  theme : Theme
  mode : Containment

namespace Setup

/-- The spans of a text under some settings. A missing text has none. -/
def spans (setup : Setup) : Option Text → List Span
  | some text => Highlight.spans setup.mode setup.theme.palette text
  | none => []

/-- Settings with a theme and a mode laid over them. What is not given stays as it is, and an unknown
mode changes nothing. -/
def overlay (setup : Setup) (theme : Option Theme) : Option String → Setup
  | none => { setup with theme := theme.getD setup.theme }
  | some name =>
    match Containment.ofName? name with
    | some mode => ⟨theme.getD setup.theme, mode⟩
    | none => setup

def serve (setup : Setup) : Request → Setup
  | .ask _ | .clear => setup
  | .configure theme mode => setup.overlay theme mode

def after (setup : Setup) (requests : List Request) : Setup :=
  requests.foldl serve setup

end Setup

/-- Whether a cache has some settings, and what it keeps is what they give. -/
structure Follows (cache : Cache) (setup : Setup) : Prop where
  theme : cache.theme.getD [] = setup.theme
  mode : cache.mode = setup.mode
  kept : ∀ text, cache.text = some text → cache.spans = setup.spans (some text)

theorem getD_themeOf (theme : Theme) : (themeOf theme).getD [] = theme := by
  cases theme <;> rfl

theorem follows_of_text_eq_none {cache : Cache} {setup : Setup}
    (theme : cache.theme.getD [] = setup.theme) (mode : cache.mode = setup.mode)
    (forgot : cache.text = none) : cache.Follows setup where
  theme := theme
  mode := mode
  kept _ remembered := absurd (forgot.symm.trans remembered) nofun

/-- A known mode makes a cache that remembers nothing yet. -/
theorem new_eq (theme : Option Theme) (mode : Containment) :
    new theme (some mode.name) = .ok { theme := theme.bind themeOf, mode } := by
  have parsed : Containment.parse (some mode.name) = .ok mode := by
    rw [Containment.parse, Option.bind_some, Containment.ofName?_eq_some_iff.mpr rfl]
  rw [new, parsed]
  rfl

/-- It has the settings that are asked for. -/
theorem exists_new (theme : Option Theme) (mode : Containment) :
    ∃ cache, new theme (some mode.name) = .ok cache ∧ cache.Follows ⟨theme.getD [], mode⟩ := by
  refine ⟨_, new_eq theme mode, follows_of_text_eq_none ?_ rfl rfl⟩
  cases theme with
  | none => rfl
  | some theme => exact getD_themeOf theme

theorem configure_eq (cache : Cache) (theme : Option Theme) (mode : Option String) :
    cache.configure theme mode =
      match mode with
      | none => .ok (clear { cache with theme := theme.elim cache.theme themeOf })
      | some name =>
        match Containment.ofName? name with
        | some mode => .ok (clear { cache with theme := theme.elim cache.theme themeOf, mode })
        | none => .error (.unknownContainment (some name)) := by
  cases mode with
  | none => cases theme <;> rfl
  | some name =>
    unfold configure
    dsimp only
    rw [Containment.parse, Option.bind_some]
    cases Containment.ofName? name with
    | none => rfl
    | some mode => cases theme <;> rfl

section Step

variable {cache : Cache} {setup : Setup} (follows : cache.Follows setup)
include follows

/-- The cache computes what the settings give. -/
theorem Follows.compute_eq (text : Option Text) : cache.compute text = setup.spans text := by
  cases text with
  | none => rfl
  | some text =>
    rw [compute, palette, follows.theme, follows.mode]
    rfl

/-- A remembered answer and a computed one are the same. -/
theorem Follows.ask (text : Option Text) :
    (cache.ask text).1.spans = setup.spans text ∧ (cache.ask text).2.Follows setup := by
  rw [Cache.ask]
  split
  · rename_i hit
    obtain ⟨known, remembered⟩ := Option.isSome_iff_exists.mp hit.1
    refine ⟨?_, follows.theme, follows.mode, follows.kept⟩
    rw [hit.2, remembered]
    exact follows.kept known remembered
  · refine ⟨follows.compute_eq text, follows.theme, follows.mode, fun known same => ?_⟩
    rw [← same]
    exact follows.compute_eq text

/-- New settings are those that were laid over the old ones. -/
theorem Follows.configure (theme : Option Theme) (mode : Option String) :
    (cache.serve (.configure theme mode)).Follows (setup.overlay theme mode) := by
  have overlaid : (theme.elim cache.theme themeOf).getD [] = theme.getD setup.theme := by
    cases theme with
    | none => exact follows.theme
    | some theme => exact getD_themeOf theme
  rw [Cache.serve, configure_eq]
  cases mode with
  | none => exact follows_of_text_eq_none overlaid follows.mode rfl
  | some name =>
    rw [Setup.overlay]
    dsimp only
    cases Containment.ofName? name with
    | none => exact follows
    | some mode => exact follows_of_text_eq_none overlaid rfl rfl

theorem Follows.serve (request : Request) :
    (cache.serve request).Follows (setup.serve request) := by
  cases request with
  | ask text => exact (follows.ask text).2
  | clear => exact follows_of_text_eq_none follows.theme follows.mode rfl
  | configure theme mode => exact follows.configure theme mode

theorem Follows.after (requests : List Request) :
    (cache.after requests).Follows (setup.after requests) := by
  induction requests generalizing cache setup with
  | nil => exact follows
  | cons request requests ih => exact ih (follows.serve request)

end Step

/-- A cache can be made for every theme and every mode. Whatever is requested of it then, its settings
are those it was made for with all later ones laid over them, and it answers each text, remembered or
not, with the spans of the text under these settings. -/
theorem answer_eq_spans (theme : Option Theme) (mode : Containment) :
    ∃ cache, new theme (some mode.name) = .ok cache ∧ ∀ requests : List Request,
      let setup := Setup.after ⟨theme.getD [], mode⟩ requests
      (cache.after requests).theme.getD [] = setup.theme ∧
      (cache.after requests).mode = setup.mode ∧
      ∀ text, ((cache.after requests).ask text).1.spans = setup.spans text := by
  obtain ⟨cache, made, follows⟩ := exists_new theme mode
  refine ⟨cache, made, fun requests => ?_⟩
  have reached := follows.after requests
  exact ⟨reached.theme, reached.mode, fun text => (reached.ask text).1⟩

end KotlinHighlight.Cache
