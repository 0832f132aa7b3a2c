/-! # Texts

A text is its list of characters, so a position is the number of characters before it. Nothing
normalises line endings: a line break is a line feed or a carriage return, and each use says which
of the two ends a line.
-/

namespace KotlinHighlight

/-- A text, character by character. -/
abbrev Text := List Char

namespace Text

def isLineBreak (c : Char) : Bool :=
  c == '\n' || c == '\r'

def isHexDigit (c : Char) : Bool :=
  c.isDigit || ('a' ≤ c && c ≤ 'f') || ('A' ≤ c && c ≤ 'F')

/-- Whether `part` stands somewhere in a text. -/
def occurs (part : Text) : Text → Bool
  | [] => part.isEmpty
  | c :: rest => part.isPrefixOf (c :: rest) || occurs part rest

def firstLine (text : Text) : Text :=
  text.takeWhile (!isLineBreak ·)

def lastLine (text : Text) : Text :=
  (text.reverse.takeWhile (!isLineBreak ·)).reverse

/-- The number of characters up to the end of the first `closer`, or to the end of the text. -/
def lengthThrough (closer : Text) : Text → Nat
  | [] => 0
  | c :: rest =>
    if closer.isPrefixOf (c :: rest) then closer.length else lengthThrough closer rest + 1

theorem lengthThrough_le_length (closer text : Text) : lengthThrough closer text ≤ text.length := by
  induction text with
  | nil => simp [lengthThrough]
  | cons c rest ih =>
    unfold lengthThrough
    split
    · rename_i closes
      exact (List.isPrefixOf_iff_prefix.mp closes).length_le
    · simp only [List.length_cons]; omega

end Text

end KotlinHighlight
