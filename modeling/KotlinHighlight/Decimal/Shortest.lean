import KotlinHighlight.Decimal.Binary64

/-! # Shortest decimals

The decimal with the fewest digits that is read back as a given number. For one digit, two digits
and so on, the two neighbours of the number on the grid of decimals with that many digits are
tried; of two that are read back the nearer is taken, and the even one of two equally near.
-/

namespace KotlinHighlight

/-- A decimal `digits * 10 ^ exponent`. -/
structure Decimal where
  digits : Nat
  exponent : Int
deriving DecidableEq, Repr

namespace Decimal

/-- The whole number nearest to a quotient; of two equally near ones, the even one. -/
def roundDiv (numerator denominator : Nat) : Nat :=
  let whole := numerator / denominator
  let twice := 2 * (numerator % denominator)
  if twice < denominator then whole
  else if denominator < twice then whole + 1
  else if whole % 2 = 0 then whole else whole + 1

/-- A quotient times a power of ten. -/
def shift (numerator denominator : Nat) (exponent : Int) : Nat × Nat :=
  if exponent < 0 then (numerator, denominator * Nat.pow 10 (-exponent).toNat)
  else (numerator * Nat.pow 10 exponent.toNat, denominator)

/-- The first of a few powers of ten that exceeds a quotient, by its exponent. -/
def firstExceeding (numerator denominator : Nat) : Nat → Int → Int
  | 0, exponent => exponent
  | tries + 1, exponent =>
    let scaled := shift numerator denominator (-exponent)
    if scaled.1 < scaled.2 then exponent
    else firstExceeding numerator denominator tries (exponent + 1)

/-- The number of digits of a positive quotient before the point; for a small quotient it counts
the zeros after the point below zero. -/
def wholeDigits (numerator denominator : Nat) : Int :=
  let twos : Int := (numerator.log2 : Int) - denominator.log2 - 1
  firstExceeding numerator denominator 4 (Int.fdiv (twos * 30103) 100000)

/-- The neighbours of a quotient on a grid, the nearer one first. -/
def neighbours (numerator denominator : Nat) (gridExponent : Int) : List Decimal :=
  let scaled := shift numerator denominator (-gridExponent)
  let below := scaled.1 / scaled.2
  let nearest := roundDiv scaled.1 scaled.2
  let other := if nearest = below then below + 1 else below
  [⟨nearest, gridExponent⟩, ⟨other, gridExponent⟩]

/-- Whether a decimal is read as the positive number of a rank. -/
def readsAs (rank : Nat) (decimal : Decimal) : Bool :=
  Binary64.ofDecimal false decimal.digits decimal.exponent == Binary64.ofRank false rank

/-- The decimal that equals the magnitude of a rank. -/
def exact (rank : Nat) : Decimal :=
  ⟨Binary64.units rank * Nat.pow 5 1074, -1074⟩

/-- The shortest decimal that is read as the number of a rank, and of those the nearest. -/
def shortest (rank : Nat) : Decimal :=
  let numerator := Binary64.units rank
  let denominator := Binary64.unitsInOne
  let whole := wholeDigits numerator denominator
  ((List.range 17).findSome? fun count =>
    (neighbours numerator denominator (whole - (count + 1 : Nat))).find? (readsAs rank)).getD
    (exact rank)

end Decimal

end KotlinHighlight
