import KotlinHighlight.Decimal.Notation
import KotlinHighlight.Json

/-! # Reading JSON

A value is read from the start of a text, together with what follows it. White space is the space,
the tab and the two line breaks. `NaN`, `Infinity` and `-Infinity` are numbers, a repeated key keeps
its first place and takes its last value, and values may nest to a fixed depth.
-/

namespace KotlinHighlight.Json

def isSpace (c : Char) : Bool :=
  c == ' ' || c == '\t' || c == '\n' || c == '\r'

def skipSpace (text : Text) : Text :=
  text.dropWhile isSpace

def hexValue? (c : Char) : Option Nat :=
  if c.isDigit then some (c.toNat - '0'.toNat)
  else if 'a' ≤ c ∧ c ≤ 'f' then some (c.toNat - 'a'.toNat + 10)
  else if 'A' ≤ c ∧ c ≤ 'F' then some (c.toNat - 'A'.toNat + 10)
  else none

def hexUnit? (a b c d : Char) : Option UInt16 := do
  let a ← hexValue? a
  let b ← hexValue? b
  let c ← hexValue? c
  let d ← hexValue? d
  return UInt16.ofNat (((a * 16 + b) * 16 + c) * 16 + d)

/-- The unit that an escape with one letter stands for. -/
def escape? (c : Char) : Option UInt16 :=
  if c = '"' ∨ c = '\\' ∨ c = '/' then some (UInt16.ofNat c.toNat)
  else if c = 'b' then some 8
  else if c = 'f' then some 12
  else if c = 'n' then some 10
  else if c = 'r' then some 13
  else if c = 't' then some 9
  else none

/-- The units of a string up to its closing quote, and the text after it. Controls have to be
escaped. -/
def readString? : Text → Option (Units × Text)
  | [] => none
  | '"' :: rest => some ([], rest)
  | '\\' :: 'u' :: a :: b :: c :: d :: rest =>
    match hexUnit? a b c d, readString? rest with
    | some unit, some (units, remaining) => some (unit :: units, remaining)
    | _, _ => none
  | '\\' :: letter :: rest =>
    match escape? letter, readString? rest with
    | some unit, some (units, remaining) => some (unit :: units, remaining)
    | _, _ => none
  | c :: rest =>
    if c.toNat < 0x20 ∨ c = '\\' then none
    else
      match readString? rest with
      | some (units, remaining) => some (Units.ofChar c ++ units, remaining)
      | none => none

/-- The values that are written as a word. -/
def words : List (Text × Json) :=
  [("null".toList, null), ("true".toList, bool true), ("false".toList, bool false),
    ("NaN".toList, float .nan), ("Infinity".toList, float (.infinity false)),
    ("-Infinity".toList, float (.infinity true))]

/-- A word at the start of a text, as its value, and the text after it. -/
def readWord? (text : Text) : Option (Json × Text) :=
  (words.find? fun entry => entry.1.isPrefixOf text).map fun (word, value) =>
    (value, text.drop word.length)

/-- The value of a spelled number: a floating-point number if it has a fraction or an exponent, and
otherwise a whole number, which must not have too many digits. -/
def ofSpelling? (spelling : Decimal.Spelling) : Option Json :=
  if spelling.fraction.isNone ∧ spelling.exponent.isNone then
    if spelling.whole.length ≤ Decimal.digitLimit then
      let value : Int := Decimal.ofDigits spelling.whole
      some (int (if spelling.negative then -value else value))
    else none
  else some (float spelling.toBinary64)

/-- A number at the start of a text, and the text after it. -/
def readNumber? (text : Text) : Option (Json × Text) :=
  match Decimal.spelling? text with
  | some (spelling, rest) => (ofSpelling? spelling).map (·, rest)
  | none => none

/-- A value that holds no other, at the start of a text, and the text after it. -/
def readScalar? : Text → Option (Json × Text)
  | '"' :: rest => (readString? rest).map fun (units, remaining) => (string units, remaining)
  | text => (readWord? text).or (readNumber? text)

/-- Up to `count` items with commas between them and a closing bracket. -/
def readItems? (readValue? : Text → Option (Json × Text)) :
    Nat → Text → Option (List Json × Text)
  | 0, _ => none
  | count + 1, text =>
    match readValue? text with
    | none => none
    | some (item, rest) =>
      match skipSpace rest with
      | ']' :: remaining => some ([item], remaining)
      | ',' :: more =>
        (readItems? readValue? count (skipSpace more)).map fun (items, remaining) =>
          (item :: items, remaining)
      | _ => none

/-- A key, a colon and a value. -/
def readMember? (readValue? : Text → Option (Json × Text)) :
    Text → Option ((Units × Json) × Text)
  | '"' :: rest =>
    match readString? rest with
    | none => none
    | some (key, afterKey) =>
      match skipSpace afterKey with
      | ':' :: more =>
        (readValue? (skipSpace more)).map fun (value, remaining) => ((key, value), remaining)
      | _ => none
  | _ => none

/-- Up to `count` members with commas between them and a closing brace. -/
def readMembers? (readValue? : Text → Option (Json × Text)) :
    Nat → Text → Option (List (Units × Json) × Text)
  | 0, _ => none
  | count + 1, text =>
    match readMember? readValue? text with
    | none => none
    | some (entry, rest) =>
      match skipSpace rest with
      | '\x7d' :: remaining => some ([entry], remaining)
      | ',' :: more =>
        (readMembers? readValue? count (skipSpace more)).map fun (entries, remaining) =>
          (entry :: entries, remaining)
      | _ => none

/-- A value at the start of a text whose arrays and objects nest no deeper than `depth`, and the
text after it. -/
def readValue? : Nat → Text → Option (Json × Text)
  | 0, text => readScalar? text
  | depth + 1, text =>
    match text with
    | '[' :: rest =>
      match skipSpace rest with
      | ']' :: remaining => some (array [], remaining)
      | inner =>
        (readItems? (readValue? depth) inner.length inner).map fun (items, remaining) =>
          (array items, remaining)
    | '\x7b' :: rest =>
      match skipSpace rest with
      | '\x7d' :: remaining => some (object [], remaining)
      | inner =>
        (readMembers? (readValue? depth) inner.length inner).map fun (entries, remaining) =>
          (object (Assoc.ofPairs entries), remaining)
    | _ => readScalar? text

/-- How deeply arrays and objects may nest. -/
def nestingLimit : Nat :=
  991

/-- The value that a whole text spells. -/
def parse? (text : Text) : Option Json :=
  match readValue? nestingLimit (skipSpace text) with
  | some (value, rest) => if (skipSpace rest).isEmpty then some value else none
  | none => none

end KotlinHighlight.Json
