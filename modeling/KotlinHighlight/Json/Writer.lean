import KotlinHighlight.Decimal.Notation
import KotlinHighlight.Json

/-! # Writing JSON

Values are written on lines indented by two spaces for each level, and in ASCII only. A whole number
with too many digits cannot be written, and there is room for so many levels only: the output then
ends with what was put out before. What stands between two items of an array is put out together with
the second one, if that is no container.
-/

namespace KotlinHighlight

/-- What was put out, and whether that is all there was to write. -/
structure Output where
  text : Text
  complete : Bool
deriving DecidableEq, Repr

namespace Output

def ofText (text : Text) : Output :=
  ⟨text, true⟩

/-- Output that fails before it puts out anything. -/
def failure : Output :=
  ⟨[], false⟩

/-- One output and then another, which is not reached after a failure. -/
def andThen (first second : Output) : Output :=
  if first.complete then ⟨first.text ++ second.text, second.complete⟩ else first

instance : Append Output := ⟨andThen⟩

theorem append_def (first second : Output) : first ++ second = first.andThen second := rfl

@[simp] theorem ofText_append_text (text : Text) (output : Output) :
    (ofText text ++ output).text = text ++ output.text := rfl

@[simp] theorem ofText_append_complete (text : Text) (output : Output) :
    (ofText text ++ output).complete = output.complete := rfl

theorem append_complete (first second : Output) :
    (first ++ second).complete = (first.complete && second.complete) := by
  rw [append_def, andThen]
  cases done : first.complete <;> simp [done]

end Output

namespace Json

/-- The lower-case hexadecimal digits of a unit, four of them. -/
def unitDigits (unit : UInt16) : Text :=
  let code := unit.toNat
  [code / 0x1000, code / 0x100 % 0x10, code / 0x10 % 0x10, code % 0x10].map Nat.digitChar

def writeUnit (unit : UInt16) : Text :=
  if unit = 0x22 then ['\\', '"']
  else if unit = 0x5c then ['\\', '\\']
  else if unit = 0x0a then ['\\', 'n']
  else if unit = 0x0d then ['\\', 'r']
  else if unit = 0x09 then ['\\', 't']
  else if unit = 0x0c then ['\\', 'f']
  else if unit = 0x08 then ['\\', 'b']
  else if 0x20 ≤ unit ∧ unit ≤ 0x7e then [Char.ofNat unit.toNat]
  else '\\' :: 'u' :: unitDigits unit

def writeString (units : Units) : Text :=
  '"' :: units.flatMap writeUnit ++ ['"']

/-- How the numbers without digits are written. -/
def specialNames : Decimal.SpecialNames :=
  ⟨"NaN", "Infinity", "-Infinity"⟩

/-- A new line, indented for a level. -/
def newLine (level : Nat) : Text :=
  '\n' :: List.replicate (2 * level) ' '

/-- Whether a whole number has few enough digits to be written. -/
def isWritable (value : Int) : Bool :=
  (Decimal.digitsOf value.natAbs).length ≤ Decimal.digitLimit

mutual

/-- A value at a level, put out after `lead`, with room for some more levels. A container takes up one
of them unless it is empty, and so does the spelling of a floating-point number. -/
def writeAfter (room : Nat) (lead : Text) (level : Nat) : Json → Output
  | .null => .ofText (lead ++ "null".toList)
  | .bool true => .ofText (lead ++ "true".toList)
  | .bool false => .ofText (lead ++ "false".toList)
  | .int value =>
    if isWritable value then .ofText (lead ++ Decimal.signedDigits value) else .failure
  | .float value =>
    if 0 < room then .ofText (lead ++ Decimal.floatText specialNames value) else .failure
  | .string units => .ofText (lead ++ writeString units)
  | .array [] => .ofText (lead ++ ['[', ']'])
  | .array (item :: items) =>
    .ofText lead ++
      match room with
      | 0 => .failure
      | room + 1 =>
        writeAfter room ('[' :: newLine (level + 1)) (level + 1) item ++
          (writeItems room (level + 1) items ++ .ofText (newLine level ++ [']']))
  | .object [] => .ofText (lead ++ ['\x7b', '\x7d'])
  | .object (entry :: entries) =>
    .ofText lead ++
      match room with
      | 0 => .failure
      | room + 1 =>
        writeMembers room ('\x7b' :: newLine (level + 1)) (level + 1) (entry :: entries) ++
          .ofText (newLine level ++ ['\x7d'])

/-- The items of an array at a level, each after a comma. -/
def writeItems (room level : Nat) : List Json → Output
  | [] => .ofText []
  | item :: items =>
    writeAfter room (',' :: newLine level) level item ++ writeItems room level items

/-- The members of an object at a level, the first after `lead` and each other after a comma. -/
def writeMembers (room : Nat) (lead : Text) (level : Nat) : List (Units × Json) → Output
  | [] => .ofText []
  | (key, value) :: entries =>
    .ofText (lead ++ writeString key ++ [':', ' ']) ++
      (writeAfter room [] level value ++ writeMembers room (',' :: newLine level) level entries)

end

/-- The room for levels that there is at first. -/
def writingRoom : Nat :=
  993

/-- A whole value. -/
def write (value : Json) : Output :=
  writeAfter writingRoom [] 0 value

end Json

end KotlinHighlight
