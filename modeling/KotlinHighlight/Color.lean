import KotlinHighlight.Text.Basic
import KotlinHighlight.Unicode.Blank

/-! # Colors

A color setting is a number sign and three or six hexadecimal digits, with blanks around them
allowed. Its canonical form has six digits in upper case: in the short form each digit stands for
itself twice.
-/

namespace KotlinHighlight.Color

def doubled (digits : Text) : Text :=
  digits.flatMap fun digit => [digit, digit]

/-- The canonical form of a color setting, if it is one. -/
def normalize? (setting : Text) : Option Text :=
  match Unicode.strip setting with
  | '#' :: digits =>
    if digits.all Text.isHexDigit then
      if digits.length = 3 then some ('#' :: (doubled digits).map Char.toUpper)
      else if digits.length = 6 then some ('#' :: digits.map Char.toUpper)
      else none
    else none
  | _ => none

end KotlinHighlight.Color
