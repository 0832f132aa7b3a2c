import KotlinHighlight.Text.Basic
import KotlinHighlight.Unicode.Printable

/-! # Quoted text

How a text is shown inside a message: between single quotes, or between double quotes when it has a
single quote and no double one, with escapes for everything that would not show.
-/

namespace KotlinHighlight.Text

/-- The last `width` hexadecimal digits of a number, in lower case. -/
def hexDigits : Nat → Nat → Text
  | 0, _ => []
  | width + 1, number => hexDigits width (number / 16) ++ [Nat.digitChar (number % 16)]

def quoteFor (text : Text) : Char :=
  if text.contains '\'' && !text.contains '"' then '"' else '\''

/-- A character that does not show is written by its code point, as short as that allows. -/
def escapedCode (c : Char) : Text :=
  let code := c.toNat
  if code ≤ 0xff then '\\' :: 'x' :: hexDigits 2 code
  else if code ≤ 0xffff then '\\' :: 'u' :: hexDigits 4 code
  else '\\' :: 'U' :: hexDigits 8 code

def quotedChar (quote c : Char) : Text :=
  if c = quote || c = '\\' then ['\\', c]
  else if c = '\n' then ['\\', 'n']
  else if c = '\r' then ['\\', 'r']
  else if c = '\t' then ['\\', 't']
  else if Unicode.isPrintable c then [c]
  else escapedCode c

def quoted (text : Text) : Text :=
  quoteFor text :: text.flatMap (quotedChar (quoteFor text)) ++ [quoteFor text]

end KotlinHighlight.Text
