import KotlinHighlight.Decimal.Shortest
import KotlinHighlight.Text.Basic

/-! # The notation of numbers

Whole numbers are written in decimal digits. Floating-point numbers are written with their shortest
digits and always show that they are no whole numbers: positionally with a point from `0.0001` up to
below `10 ^ 16`, and otherwise with an exponent of a sign and at least two digits.
-/

namespace KotlinHighlight.Decimal

/-- Whole numbers with more digits than this are neither read nor written. -/
def digitLimit : Nat :=
  4300

def digitsOf (number : Nat) : Text :=
  Nat.toDigits 10 number

def ofDigits (digits : Text) : Nat :=
  Nat.ofDigitChars 10 digits 0

theorem ofDigits_digitsOf (number : Nat) : ofDigits (digitsOf number) = number :=
  Nat.ofDigitChars_toDigits (by decide) (by decide)

theorem isDigit_of_mem_digitsOf {number : Nat} {c : Char} (member : c ∈ digitsOf number) :
    c.isDigit :=
  Nat.isDigit_of_mem_toDigits (by decide) (by decide) member

def signedDigits : Int → Text
  | .ofNat number => digitsOf number
  | .negSucc number => '-' :: digitsOf (number + 1)

/-- The digits of a decimal without the zeros at their end, and the place of the point counted from
the first digit. -/
def significant (decimal : Decimal) : Text × Int :=
  let digits := digitsOf decimal.digits
  ((digits.reverse.dropWhile (· == '0')).reverse, digits.length + decimal.exponent)

/-- Digits with their point at a place, filled up with zeros. -/
def positional (digits : Text) (point : Int) : Text :=
  if point ≤ 0 then "0.".toList ++ List.replicate (-point).toNat '0' ++ digits
  else if point < digits.length then
    digits.take point.toNat ++ '.' :: digits.drop point.toNat
  else digits ++ List.replicate (point.toNat - digits.length) '0' ++ ".0".toList

/-- Digits with the point after the first one, and a power of ten. -/
def withExponent (digits : Text) (exponent : Int) : Text :=
  let fraction := if digits.length ≤ 1 then [] else '.' :: digits.drop 1
  let sign := if exponent < 0 then '-' else '+'
  let power := digitsOf exponent.natAbs
  digits.take 1 ++ fraction ++ 'e' :: sign :: (List.replicate (2 - power.length) '0' ++ power)

/-- The text of a finite number without its sign. -/
def magnitudeText (rank : Nat) : Text :=
  if rank = 0 then "0.0".toList
  else
    let (digits, point) := significant (shortest rank)
    if -4 < point ∧ point ≤ 16 then positional digits point else withExponent digits (point - 1)

/-- The names of the numbers that have no digits. -/
structure SpecialNames where
  nan : String
  infinity : String
  negativeInfinity : String

/-- The text of a floating-point number. -/
def floatText (names : SpecialNames) : Binary64 → Text
  | .nan => names.nan.toList
  | .infinity false => names.infinity.toList
  | .infinity true => names.negativeInfinity.toList
  | .finite negative rank =>
    if negative then '-' :: magnitudeText rank.val else magnitudeText rank.val

/-- A number as it is spelled: digits, the digits after the point, and a power of ten. -/
structure Spelling where
  negative : Bool
  whole : Text
  fraction : Option Text
  exponent : Option Int
deriving DecidableEq, Repr

/-- The floating-point number nearest to a spelled one. -/
def Spelling.toBinary64 (spelling : Spelling) : Binary64 :=
  let fraction := spelling.fraction.getD []
  Binary64.ofDecimal spelling.negative (ofDigits (spelling.whole ++ fraction))
    (spelling.exponent.getD 0 - fraction.length)

/-- A sign and digits at the start of a text, and the rest. -/
def power? (text : Text) : Option (Int × Text) :=
  let (negative, unsigned) :=
    match text with
    | '-' :: rest => (true, rest)
    | '+' :: rest => (false, rest)
    | _ => (false, text)
  match unsigned.takeWhile Char.isDigit with
  | [] => none
  | digits =>
    let value : Int := ofDigits digits
    some (if negative then -value else value, unsigned.dropWhile Char.isDigit)

/-- A point and the digits after it at the start of a text, and the rest. -/
def fractionPart (text : Text) : Option Text × Text :=
  match text with
  | '.' :: rest =>
    match rest.takeWhile Char.isDigit with
    | [] => (none, text)
    | digits => (some digits, rest.dropWhile Char.isDigit)
  | _ => (none, text)

/-- An exponent mark and its power at the start of a text, and the rest. -/
def exponentPart (text : Text) : Option Int × Text :=
  match text with
  | c :: rest =>
    if c = 'e' ∨ c = 'E' then
      match power? rest with
      | some (value, remaining) => (some value, remaining)
      | none => (none, text)
    else (none, text)
  | [] => (none, [])

/-- The digits before the point: a single zero, or digits that do not start with one. -/
def wholePart? : Text → Option (Text × Text)
  | [] => none
  | c :: rest =>
    if c = '0' then some (['0'], rest)
    else if c.isDigit then some (c :: rest.takeWhile Char.isDigit, rest.dropWhile Char.isDigit)
    else none

/-- The longest number at the start of a text, and the rest. -/
def spelling? (text : Text) : Option (Spelling × Text) :=
  let (negative, unsigned) :=
    match text with
    | '-' :: rest => (true, rest)
    | _ => (false, text)
  (wholePart? unsigned).map fun (whole, afterWhole) =>
    let (fraction, afterFraction) := fractionPart afterWhole
    let (exponent, remaining) := exponentPart afterFraction
    (⟨negative, whole, fraction, exponent⟩, remaining)

/-- The floating-point number that a whole text spells, in digits or by a name. -/
def readFloat? (names : SpecialNames) (text : Text) : Option Binary64 :=
  if text = names.nan.toList then some .nan
  else if text = names.infinity.toList then some (.infinity false)
  else if text = names.negativeInfinity.toList then some (.infinity true)
  else
    match spelling? text with
    | some (spelling, []) => some spelling.toBinary64
    | _ => none

end KotlinHighlight.Decimal
