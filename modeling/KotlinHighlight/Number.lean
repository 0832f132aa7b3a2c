import KotlinHighlight.Pattern

/-! # Number literals

Hexadecimal, binary and decimal numbers with separators and suffixes. A number stands between word
boundaries. Its parts are tried in order and taken as long as possible, and given back until a
boundary follows: in `1..5` the number is `1`, and in `1.5x` it is `1.`.
-/

namespace KotlinHighlight.Number

open Pattern

def isBinaryDigit (c : Char) : Bool :=
  c == '0' || c == '1'

def anyOf (choices : List Char) : Pattern :=
  one (choices.contains ·)

/-- Digits with underscores between them. -/
def separated (isDigit : Char → Bool) : Pattern :=
  both (one isDigit)
    (optional (both (many (one fun c => isDigit c || c == '_')) (one isDigit)))

/-- The suffix of an unsigned number or a long one. -/
def wholeSuffix : Pattern :=
  optional (either (both (anyOf ['u', 'U']) (optional (anyOf ['l', 'L']))) (anyOf ['l', 'L']))

/-- A number in another base: a zero, the letter of the base, and digits. -/
def based (letters : List Char) (isDigit : Char → Bool) : Pattern :=
  sequence [boundary, char '0', anyOf letters, separated isDigit, wholeSuffix, boundary]

def hexadecimal : Pattern :=
  based ['x', 'X'] Text.isHexDigit

def binary : Pattern :=
  based ['b', 'B'] isBinaryDigit

/-- The point of a decimal number and the fraction after it, if any. -/
def fraction : Pattern :=
  both (char '.') (optional (separated Unicode.isDecimal))

def exponent : Pattern :=
  sequence [anyOf ['e', 'E'], optional (anyOf ['+', '-']), one Unicode.isDecimal,
    many (one Unicode.isDecimal)]

def decimalSuffix : Pattern :=
  optional (either (anyOf ['f', 'F', 'd', 'D', 'l', 'L'])
    (both (anyOf ['u', 'U']) (optional (anyOf ['l', 'L']))))

/-- A decimal number, with an optional fraction and an optional exponent. -/
def decimal : Pattern :=
  sequence [boundary, separated Unicode.isDecimal, optional fraction, optional exponent,
    decimalSuffix, boundary]

/-- A number literal. -/
def pattern : Pattern :=
  choice [hexadecimal, binary, decimal]

end KotlinHighlight.Number
