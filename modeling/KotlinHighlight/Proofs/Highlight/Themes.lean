import Mathlib.Data.String.Basic
import KotlinHighlight.Proofs.Palette
import KotlinHighlight.Proofs.Text.Utf16

/-! # What a theme decides

A theme decides the colors of the spans and nothing else (`spans_eq_map_recolored`). The color of a
category is that of the last wish for it that counts, or else its default (`inForce_color`): a wish
that does not count neither sets a color nor takes one back. Granting the wishes one by one in a table
of the categories leaves the six where they stand (`table_eq_entries`), and a table that is given as the
wishes comes back as it is (`table_ofWishes_wishesOf`).
-/

namespace KotlinHighlight

def Span.uncolored (span : Span) : Span :=
  { span with color := "" }

/-- A span in the color that a palette gives its category. -/
def Span.recolored (palette : Palette) (span : Span) : Span :=
  { span with color := palette.color span.category }

namespace Highlight

/-- The spans under one palette are those under any other, with other colors. -/
theorem spans_eq_map_recolored (mode : Containment) (palette other : Palette) (text : Text) :
    spans mode palette text = (spans mode other text).map (·.recolored palette) := by
  cases mode with
  | scan =>
    simp only [spans, scan, regionSpans, codeSpans, List.map_append, List.map_flatMap, List.map_map]
    rfl
  | heuristic =>
    simp only [spans, heuristic, List.map_flatMap, List.map_map]
    rfl

theorem map_uncolored_spans (mode : Containment) (palette other : Palette) (text : Text) :
    (spans mode palette text).map Span.uncolored = (spans mode other text).map Span.uncolored := by
  rw [spans_eq_map_recolored mode palette other, List.map_map]
  rfl

end Highlight

namespace Theme

/-! ### Wishes -/

/-- A key as it is given: a category itself, or a text. -/
inductive Key where
  | category (category : Category)
  | text (text : Text)
deriving DecidableEq, Repr

namespace Key

def toText : Key → Text
  | .category known => known.name.toList
  | .text given => given

/-- Whether a key is for a category: it is the category, or a text that is the name of the category in
lower case. -/
def IsFor (wanted : Category) : Key → Prop
  | .category known => known = wanted
  | .text given => Unicode.lower given = wanted.name.toList

theorem category?_toText_eq_some_iff {key : Key} {wanted : Category} :
    category? key.toText = some wanted ↔ key.IsFor wanted := by
  cases key with
  | category known =>
    rw [toText, Palette.category?_name, Option.some.injEq]
    rfl
  | text given =>
    rw [toText, category?, Category.ofName?_eq_some_iff, String.ofList_eq]
    rfl

end Key

/-- The theme with some keys and values. -/
def ofWishes (wishes : List (Key × Json)) : Theme :=
  wishes.map fun wish => (wish.1.toText, wish.2)

/-- Whether a wish gives a category a color: its key is for the category, and its value is that color, a
text that is not empty. -/
def Grants (category : Category) (color : String) (wish : Key × Json) : Prop :=
  wish.1.IsFor category ∧ wish.2 = Json.ofText color.toList ∧ color ≠ ""

/-- Whether a color is in force for a category: the last wish that gives the category any gives it this
one, or no wish gives it any and it is the default. -/
def InForce (category : Category) (color : String) (wishes : List (Key × Json)) : Prop :=
  (∃ before wish after, wishes = before ++ wish :: after ∧ Grants category color wish ∧
      ∀ later ∈ after, ∀ other, ¬Grants category other later) ∨
    (∀ wish ∈ wishes, ∀ other, ¬Grants category other wish) ∧
      color = Palette.default.color category

/-- A value wishes for a color just if it is that color and not empty. -/
theorem color?_eq_some_iff {value : Json} {color : String} :
    color? value = some color ↔ value = Json.ofText color.toList ∧ color ≠ "" := by
  constructor
  · intro wished
    rw [color?] at wished
    split at wished
    · next c rest read =>
      obtain rfl := Option.some.inj wished
      rw [String.toList_ofList]
      constructor
      · cases value with
        | string units => rw [Json.ofText, ← Units.toText?_eq_some_iff.mp read]
        | _ => exact absurd read (by simp [Json.text?])
      · exact fun empty => List.cons_ne_nil c rest (String.ofList_eq_empty_iff.mp empty)
    · exact absurd wished (by simp)
  · rintro ⟨rfl, filled⟩
    exact Palette.color?_ofString filled

/-- The color that a wish gives a category. -/
def granted? (category : Category) (wish : Key × Json) : Option String :=
  (wish? (wish.1.toText, wish.2)).bind fun choice =>
    if choice.1 = category then some choice.2 else none

theorem wish?_eq_some_iff {entry : Text × Json} {category : Category} {color : String} :
    wish? entry = some (category, color) ↔
      category? entry.1 = some category ∧ color? entry.2 = some color := by
  rw [wish?]
  split <;> simp_all

theorem granted?_eq_some_iff {category : Category} {color : String} {wish : Key × Json} :
    granted? category wish = some color ↔ Grants category color wish := by
  have choice : granted? category wish = some color ↔
      wish? (wish.1.toText, wish.2) = some (category, color) := by
    simp only [granted?, Option.bind_eq_some_iff, Option.ite_none_right_eq_some, Option.some.injEq,
      Prod.exists]
    constructor
    · rintro ⟨_, _, wished, rfl, rfl⟩
      exact wished
    · exact fun wished => ⟨category, color, wished, rfl, rfl⟩
  rw [choice, wish?_eq_some_iff, Key.category?_toText_eq_some_iff, color?_eq_some_iff, Grants]

theorem granted?_eq_none_iff {category : Category} {wish : Key × Json} :
    granted? category wish = none ↔ ∀ color, ¬Grants category color wish := by
  rw [Option.eq_none_iff_forall_ne_some]
  exact forall_congr' fun color => not_congr granted?_eq_some_iff

theorem choicesFor_ofWishes (category : Category) (wishes : List (Key × Json)) :
    Palette.choicesFor category ((ofWishes wishes).filterMap wish?) =
      wishes.filterMap (granted? category) := by
  rw [Palette.choicesFor, ofWishes, List.filterMap_map, List.filterMap_filterMap]
  rfl

/-- The palette of a theme has the colors in force. -/
theorem inForce_color (category : Category) (wishes : List (Key × Json)) :
    InForce category ((ofWishes wishes).palette.color category) wishes := by
  rw [palette, Palette.color_foldl_set, choicesFor_ofWishes, List.getLast?_filterMap]
  cases found : wishes.reverse.findSome? (granted? category) with
  | none =>
    right
    have refused := List.findSome?_eq_none_iff.mp found
    exact ⟨fun wish member => granted?_eq_none_iff.mp (refused wish (List.mem_reverse.mpr member)),
      rfl⟩
  | some color =>
    left
    obtain ⟨after, wish, before, cut, granted, refused⟩ := List.findSome?_eq_some_iff.mp found
    refine ⟨before.reverse, wish, after.reverse, ?_, granted?_eq_some_iff.mp granted, ?_⟩
    · rw [← List.reverse_reverse wishes, cut]
      simp
    · exact fun later member =>
        granted?_eq_none_iff.mp (refused later (List.mem_reverse.mp member))

theorem ne_empty_of_inForce {category : Category} {color : String} {wishes : List (Key × Json)}
    (inForce : InForce category color wishes) : color ≠ "" := by
  rcases inForce with ⟨_, _, _, _, ⟨_, _, filled⟩, _⟩ | ⟨_, rfl⟩
  · exact filled
  · cases category <;> decide

/-! ### The table of the categories -/

/-- The defaults with the valid wishes of a theme put in one by one. -/
def table (theme : Theme) : Assoc Category String :=
  (theme.filterMap wish?).foldl (fun table choice => table.put choice.1 choice.2)
    Palette.default.entries

theorem put_entries (palette : Palette) (category : Category) (color : String) :
    Assoc.put category color palette.entries = (palette.set category color).entries := by
  cases category <;> rfl

theorem foldl_put_entries (palette : Palette) (choices : List (Category × String)) :
    choices.foldl (fun table choice => Assoc.put choice.1 choice.2 table) palette.entries =
      (choices.foldl (fun palette choice => palette.set choice.1 choice.2) palette).entries := by
  induction choices generalizing palette with
  | nil => rfl
  | cons choice choices ih => rw [List.foldl_cons, List.foldl_cons, put_entries, ih]

theorem table_eq_entries (theme : Theme) : theme.table = theme.palette.entries :=
  foldl_put_entries .default (theme.filterMap wish?)

/-- The wishes for just the colors of a table. -/
def wishesOf (table : Assoc Category String) : List (Key × Json) :=
  table.map fun entry => (.category entry.1, Json.ofText entry.2.toList)

theorem ofWishes_wishesOf_entries (palette : Palette) :
    ofWishes (wishesOf palette.entries) = palette.toTheme := by
  rw [ofWishes, wishesOf, List.map_map]
  rfl

/-- The table of some wishes, given as the wishes, comes back as it is. -/
theorem table_ofWishes_wishesOf (wishes : List (Key × Json)) :
    (ofWishes (wishesOf (ofWishes wishes).table)).table = (ofWishes wishes).table := by
  have filled (category : Category) : (ofWishes wishes).palette.color category ≠ "" :=
    ne_empty_of_inForce (inForce_color category wishes)
  rw [table_eq_entries (ofWishes wishes), ofWishes_wishesOf_entries, table_eq_entries,
    Palette.palette_toTheme filled]

end Theme

namespace Highlight

open Theme in
/-- Themes only recolor. Without their colors the spans of a text are the same under all themes; the
color of each span is the one in force for its category; and the table of a theme has the six categories
in order and, given as a theme, comes back as it is. -/
theorem themes_only_recolor (given : Option String) (text : Text) :
    (∀ first second : Theme,
      (spans (.parseOrScan given) first.palette text).map Span.uncolored =
        (spans (.parseOrScan given) second.palette text).map Span.uncolored) ∧
    ∀ wishes : List (Key × Json),
      (∀ span ∈ spans (.parseOrScan given) (ofWishes wishes).palette text,
        InForce span.category span.color wishes) ∧
      (ofWishes wishes).table = (ofWishes wishes).palette.entries ∧
      Assoc.keys (ofWishes wishes).table =
        [.keyword, .string, .comment, .number, .builtinFunction, .type] ∧
      (ofWishes (wishesOf (ofWishes wishes).table)).table = (ofWishes wishes).table := by
  refine ⟨fun first second => map_uncolored_spans _ _ _ _, fun wishes => ⟨?_, ?_, ?_, ?_⟩⟩
  · intro span member
    rw [color_of_mem_spans member]
    exact inForce_color span.category wishes
  · exact table_eq_entries (ofWishes wishes)
  · rw [table_eq_entries]
    rfl
  · exact table_ofWishes_wishesOf wishes

open Theme in
/-- A key may begin with the sign of the unit kelvin, which is a `k` in lower case. The later wishes for
the keywords are empty or no text, so the first one counts; the strings keep their default. -/
theorem themes_only_recolor_of_kelvin_sign :
    let text := "val s = \"\"".toList
    let wishes : List (Key × Json) :=
      [(.text "\u212AEYword".toList, Json.ofText "#111111".toList),
        (.category .keyword, Json.ofText []), (.text "Keyword".toList, .int 5),
        (.text "string ".toList, Json.ofText "#222222".toList)]
    spans (.parseOrScan none) (ofWishes wishes).palette text =
        [⟨8, 10, .string, "#067D17"⟩, ⟨0, 3, .keyword, "#111111"⟩] ∧
      InForce .string "#067D17" wishes ∧ InForce .keyword "#111111" wishes ∧
      (ofWishes (wishesOf (ofWishes wishes).table)).table = (ofWishes wishes).table := by
  intro text wishes
  have spanned : spans (.parseOrScan none) (ofWishes wishes).palette text =
      [⟨8, 10, .string, "#067D17"⟩, ⟨0, 3, .keyword, "#111111"⟩] := by
    decide +kernel
  obtain ⟨inForce, -, -, again⟩ := (themes_only_recolor none text).2 wishes
  rw [spanned] at inForce
  exact ⟨spanned, inForce _ List.mem_cons_self, inForce _ (List.mem_cons_of_mem _ List.mem_cons_self),
    again⟩

end Highlight

end KotlinHighlight
