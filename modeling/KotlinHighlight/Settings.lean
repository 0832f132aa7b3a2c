import KotlinHighlight.Color
import KotlinHighlight.Containment
import KotlinHighlight.Palette
import KotlinHighlight.Unicode.Blank

/-! # Settings

What the settings say about highlighting: colors for the categories, the containment mode and
whether to tell what is done. Whatever they say that is of no use is left out of account.
-/

namespace KotlinHighlight

/-- The members of the settings object. -/
abbrev Settings := Assoc Units Json

namespace Settings

/-- A setting in lower case and without the blanks around it. -/
def folded (text : Text) : String :=
  String.ofList (Unicode.lower (Unicode.strip text))

def colorsKey : Units :=
  Units.ofString "highlight_colors"

def containmentKey : Units :=
  Units.ofString "highlight_containment"

def debugKey : Units :=
  Units.ofString "highlight_debug"

def category? (key : Units) : Option Category :=
  key.toText?.bind fun text => Category.ofName? (folded text)

def color? (value : Json) : Option String :=
  (value.text?.bind Color.normalize?).map String.ofList

def colorChoice? (entry : Units × Json) : Option (Category × String) :=
  match category? entry.1, color? entry.2 with
  | some category, some color => some (category, color)
  | _, _ => none

/-- The wishes for colors, if there are any. -/
def colorMembers (settings : Settings) : Assoc Units Json :=
  ((settings.get? colorsKey).bind Json.members?).getD []

/-- The colors of the categories: of the valid choices for one the last, or else its default. -/
def palette (settings : Settings) : Palette :=
  (settings.colorMembers.filterMap colorChoice?).foldl
    (fun palette choice => palette.set choice.1 choice.2) .default

/-- The containment mode, which is the scan unless the settings name another. -/
def containment (settings : Settings) : Containment :=
  (((settings.get? containmentKey).bind Json.text?).bind
    fun text => Containment.ofName? (folded text)).getD .scan

def debug (settings : Settings) : Bool :=
  (settings.get? debugKey).any Json.isTruthy

end Settings

end KotlinHighlight
