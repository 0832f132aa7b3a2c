import KotlinHighlight.Proofs.Palette
import KotlinHighlight.Settings

/-! # What settings choose

A category has the color of the last member of the color settings whose key names it and whose value is
a color, in canonical form, or else its default (`color_palette`). Handed on as a theme these colors
stay the same (`palette_toTheme_palette`), and nothing is changed by leaving out members that give no
color (`trimmed_eq`). The mode is the heuristic only if the settings name it
(`containment_eq_heuristic_iff`).
-/

namespace KotlinHighlight

/-- A color in canonical form is a number sign and digits. -/
theorem Color.exists_digits_of_normalize? {setting color : Text}
    (normal : Color.normalize? setting = some color) : ∃ digits, color = '#' :: digits := by
  rw [Color.normalize?] at normal
  split at normal
  · split_ifs at normal
    · exact ⟨_, (Option.some.inj normal).symm⟩
    · exact ⟨_, (Option.some.inj normal).symm⟩
  · exact absurd normal nofun

namespace Settings

/-- The colors that members give a category, in order. -/
def colorsFor (settings : Settings) (category : Category) : List String :=
  settings.colorMembers.filterMap fun entry =>
    if category? entry.1 = some category then color? entry.2 else none

/-- The color that settings choose for a category: the last that a member gives it, or else its
default. -/
def chosenColor (settings : Settings) (category : Category) : String :=
  (settings.colorsFor category).getLast?.getD (Palette.default.color category)

theorem choicesFor_filterMap_colorChoice? (members : Assoc Units Json) (category : Category) :
    Palette.choicesFor category (members.filterMap colorChoice?) =
      members.filterMap fun entry =>
        if category? entry.1 = some category then color? entry.2 else none := by
  rw [Palette.choicesFor, List.filterMap_filterMap]
  apply List.filterMap_congr
  intro entry _
  rw [colorChoice?]
  cases category? entry.1 with
  | none => rfl
  | some named =>
    cases color? entry.2 with
    | none => exact (ite_self _).symm
    | some color => simp only [Option.bind_some, Option.some.injEq]

/-- The palette has the colors that the settings choose. -/
theorem color_palette (settings : Settings) (category : Category) :
    settings.palette.color category = settings.chosenColor category := by
  rw [palette, Palette.color_foldl_set, choicesFor_filterMap_colorChoice?]
  rfl

theorem color?_ne_empty {value : Json} {color : String} (given : color? value = some color) :
    color ≠ "" := by
  obtain ⟨text, normal, rfl⟩ := Option.map_eq_some_iff.mp given
  obtain ⟨setting, -, normal⟩ := Option.bind_eq_some_iff.mp normal
  obtain ⟨digits, rfl⟩ := Color.exists_digits_of_normalize? normal
  exact fun empty => absurd (congrArg String.toList empty) (by simp)

theorem chosenColor_ne_empty (settings : Settings) (category : Category) :
    settings.chosenColor category ≠ "" := by
  rw [chosenColor]
  cases last : (settings.colorsFor category).getLast? with
  | none => cases category <;> decide
  | some color =>
    obtain ⟨entry, -, given⟩ := List.mem_filterMap.mp (List.mem_of_getLast? last)
    exact color?_ne_empty (Option.ite_none_right_eq_some.mp given).2

theorem palette_toTheme_palette (settings : Settings) :
    settings.palette.toTheme.palette = settings.palette :=
  Palette.palette_toTheme fun category =>
    settings.color_palette category ▸ settings.chosenColor_ne_empty category

/-- The heuristic has to be named, in any mixture of capital and small letters and with blanks around
it. -/
theorem containment_eq_heuristic_iff (settings : Settings) :
    settings.containment = .heuristic ↔ ∃ text,
      (settings.get? containmentKey).bind Json.text? = some text ∧ folded text = "heuristic" := by
  rw [containment, Option.getD_eq_iff, Option.bind_eq_some_iff]
  simp only [Containment.ofName?_eq_some_iff, reduceCtorEq, and_false, or_false]
  rfl

/-- Settings with only some of their color members. -/
def trimmed (settings : Settings) (keep : Units × Json → Bool) : Settings :=
  Assoc.put colorsKey (.object (settings.colorMembers.filter keep)) settings

/-- To leave out color members that give no color changes nothing. -/
theorem trimmed_eq (settings : Settings) {keep : Units × Json → Bool}
    (keeps : ∀ entry ∈ settings.colorMembers, (colorChoice? entry).isSome = true →
      keep entry = true) :
    (settings.trimmed keep).palette = settings.palette ∧
      (settings.trimmed keep).containment = settings.containment ∧
      (settings.trimmed keep).debug = settings.debug := by
  have kept : (settings.trimmed keep).colorMembers = settings.colorMembers.filter keep := by
    rw [colorMembers, trimmed, Assoc.get?_put_self]
    rfl
  have choices : (settings.trimmed keep).colorMembers.filterMap colorChoice? =
      settings.colorMembers.filterMap colorChoice? := by
    rw [kept, List.filterMap_filter]
    apply List.filterMap_congr
    intro entry member
    split
    · rfl
    · rename_i dropped
      exact (Option.not_isSome_iff_eq_none.mp (mt (keeps entry member) dropped)).symm
  refine ⟨by rw [palette, choices, palette], ?_, ?_⟩
  · rw [containment, trimmed, Assoc.get?_put_of_ne (by decide), containment]
  · rw [debug, trimmed, Assoc.get?_put_of_ne (by decide), debug]

end Settings

end KotlinHighlight
