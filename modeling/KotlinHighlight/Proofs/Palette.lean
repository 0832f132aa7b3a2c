import Mathlib.Data.List.Basic
import KotlinHighlight.Highlight

/-! # Colors that are chosen

Of the colors that are chosen for a category one after the other the last one is in force
(`color_foldl_set`). So the theme that wishes for the colors of a palette gives just that palette
(`palette_toTheme`). Every span has the color that the palette gives its category (`color_of_mem_spans`).
-/

namespace KotlinHighlight

namespace Palette

/-- The colors that some choices give a category, in order. -/
def choicesFor (category : Category) (choices : List (Category × String)) : List String :=
  choices.filterMap fun choice => if choice.1 = category then some choice.2 else none

/-- The last choice for a category is in force. -/
theorem color_foldl_set (palette : Palette) (choices : List (Category × String))
    (category : Category) :
    (choices.foldl (fun palette choice => palette.set choice.1 choice.2) palette).color category =
      (choicesFor category choices).getLast?.getD (palette.color category) := by
  induction choices generalizing palette with
  | nil => rfl
  | cons choice choices ih =>
    obtain ⟨other, color⟩ := choice
    rw [List.foldl_cons, ih, choicesFor, choicesFor, List.filterMap_cons]
    by_cases same : other = category
    · rw [same, color_set_self]
      simp [List.getLast?_cons]
    · rw [color_set_of_ne _ (Ne.symm same)]
      simp [same]

theorem choicesFor_entries (palette : Palette) (category : Category) :
    choicesFor category palette.entries = [palette.color category] := by
  cases category <;> rfl

theorem category?_name (category : Category) :
    Theme.category? category.name.toList = some category := by
  cases category <;> decide +kernel

theorem color?_ofString {color : String} (nonempty : color ≠ "") :
    Theme.color? (.string (Units.ofString color)) = .some color := by
  rw [Theme.color?, Json.text?, Units.ofString, Units.toText?_ofText]
  cases text : color.toList with
  | nil => exact absurd (String.toList_eq_nil_iff.mp text) nonempty
  | cons c rest =>
    dsimp only
    rw [← text, String.ofList_toList]

/-- The theme that wishes for the colors of a palette gives this palette, if each color is a text at
all. -/
theorem palette_toTheme {palette : Palette} (filled : ∀ category, palette.color category ≠ "") :
    palette.toTheme.palette = palette := by
  have wishes : palette.toTheme.filterMap Theme.wish? = palette.entries := by
    have granted : ∀ entry ∈ palette.entries,
        Theme.wish? (entry.1.name.toList, .string (Units.ofString entry.2)) = some entry := by
      intro entry member
      obtain ⟨category, -, rfl⟩ := List.mem_map.mp member
      rw [Theme.wish?, category?_name, color?_ofString (filled category)]
    rw [toTheme, List.filterMap_map]
    exact (List.filterMap_congr granted).trans List.filterMap_some
  apply ext_color
  intro category
  rw [Theme.palette, wishes, color_foldl_set, choicesFor_entries]
  rfl

end Palette

namespace Highlight

/-- Every span has the color of its category. -/
theorem color_of_mem_spans {mode : Containment} {palette : Palette} {text : Text} {span : Span}
    (member : span ∈ spans mode palette text) : span.color = palette.color span.category := by
  cases mode with
  | scan =>
    rw [spans, scan, List.mem_append] at member
    rcases member with region | code
    · obtain ⟨pass, -, marked⟩ := List.mem_flatMap.mp region
      obtain ⟨region, -, rfl⟩ := List.mem_map.mp marked
      rfl
    · obtain ⟨pass, -, marked⟩ := List.mem_flatMap.mp code
      obtain ⟨stretch, -, rfl⟩ := List.mem_map.mp marked
      rfl
  | heuristic =>
    obtain ⟨pass, -, marked⟩ := List.mem_flatMap.mp member
    obtain ⟨stretch, -, rfl⟩ := List.mem_map.mp marked
    rfl

end Highlight

end KotlinHighlight
