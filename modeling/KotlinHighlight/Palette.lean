import KotlinHighlight.Category
import KotlinHighlight.Json
import KotlinHighlight.Unicode.LowerCase

/-! # Palettes and themes

A palette has a color text for each category. A theme is a list of wishes, of which the last valid
one for a category counts: its key names the category in any mixture of capital and small letters,
and its value is a text that is not empty. Colors are texts, so strings with a surrogate that has no
partner lie outside this model: `Theme.color?` refuses them, though they name a color as well.
-/

namespace KotlinHighlight

structure Palette where
  keyword : String
  string : String
  comment : String
  number : String
  builtinFunction : String
  type : String
deriving DecidableEq, Repr

/-- Keys and the values that are wished for them, in order. -/
abbrev Theme := Assoc Text Json

namespace Palette

def default : Palette where
  keyword := "#0033B3"
  string := "#067D17"
  comment := "#8C8C8C"
  number := "#1750EB"
  builtinFunction := "#00627A"
  type := "#000000"

def color (palette : Palette) : Category → String
  | .keyword => palette.keyword
  | .string => palette.string
  | .comment => palette.comment
  | .number => palette.number
  | .builtinFunction => palette.builtinFunction
  | .type => palette.type

def set (palette : Palette) (category : Category) (color : String) : Palette :=
  match category with
  | .keyword => { palette with keyword := color }
  | .string => { palette with string := color }
  | .comment => { palette with comment := color }
  | .number => { palette with number := color }
  | .builtinFunction => { palette with builtinFunction := color }
  | .type => { palette with type := color }

@[simp] theorem color_set_self (palette : Palette) (category : Category) (color : String) :
    (palette.set category color).color category = color := by
  cases category <;> rfl

theorem color_set_of_ne (palette : Palette) {category other : Category}
    (different : other ≠ category) (color : String) :
    (palette.set category color).color other = palette.color other := by
  cases category <;> cases other <;> first | rfl | exact absurd rfl different

/-- Two palettes that agree on every category are the same. -/
theorem ext_color {first second : Palette}
    (agree : ∀ category, first.color category = second.color category) : first = second := by
  cases first
  cases second
  simp only [mk.injEq]
  exact ⟨agree .keyword, agree .string, agree .comment, agree .number, agree .builtinFunction,
    agree .type⟩

def entries (palette : Palette) : List (Category × String) :=
  Category.all.map fun category => (category, palette.color category)

/-- The theme that wishes for exactly the colors of a palette. -/
def toTheme (palette : Palette) : Theme :=
  palette.entries.map fun (category, color) =>
    (category.name.toList, .string (Units.ofString color))

end Palette

namespace Theme

/-- The category that a key names, in any mixture of capital and small letters. -/
def category? (key : Text) : Option Category :=
  Category.ofName? (String.ofList (Unicode.lower key))

def color? (value : Json) : Option String :=
  match value.text? with
  | some (c :: rest) => some (String.ofList (c :: rest))
  | _ => none

def wish? (entry : Text × Json) : Option (Category × String) :=
  match category? entry.1, color? entry.2 with
  | some category, some color => some (category, color)
  | _, _ => none

/-- The default palette with the valid wishes of a theme granted in order. -/
def palette (theme : Theme) : Palette :=
  (theme.filterMap wish?).foldl (fun palette wish => palette.set wish.1 wish.2) .default

end Theme

end KotlinHighlight
