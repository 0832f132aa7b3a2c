/-! # Binary floating point with 64 bits

The finite numbers without a sign are numbered from zero upward: the number of rank `r` has the
exponent `r / 2 ^ 52` and the fraction `r % 2 ^ 52`, as its bits have. So each value has one form,
and a larger rank is a larger number. All magnitudes are whole multiples of the smallest positive
one, `1 / 2 ^ 1074`. Decimals are rounded to the nearest number, and between two equally near ones
to the one of even rank.
-/

namespace KotlinHighlight

/-- The number of ranks, and so the rank of the first magnitude that is too large. -/
def Binary64.rankCount : Nat :=
  2047 * Nat.pow 2 52

/-- A floating-point number. -/
inductive Binary64 where
  | nan
  | infinity (negative : Bool)
  | finite (negative : Bool) (rank : Fin Binary64.rankCount)
deriving DecidableEq, Repr

namespace Binary64

/-- How many of the smallest positive number make one. -/
def unitsInOne : Nat :=
  Nat.pow 2 1074

/-- The magnitude of a rank, in multiples of the smallest positive number. -/
def units (rank : Nat) : Nat :=
  let fractions := Nat.pow 2 52
  if rank < fractions then rank
  else (rank % fractions + fractions) * Nat.pow 2 (rank / fractions - 1)

def zero (negative : Bool) : Binary64 :=
  finite negative ⟨0, by decide⟩

/-- The finite number of a rank, and infinity where the ranks end. -/
def ofRank (negative : Bool) (rank : Nat) : Binary64 :=
  if within : rank < rankCount then finite negative ⟨rank, within⟩ else infinity negative

/-- The greatest number that satisfies a condition, among those that have `bits` more binary digits
than `start`. Smaller numbers have to satisfy what a greater one does. -/
def greatest (holds : Nat → Bool) : Nat → Nat → Nat
  | 0, start => start
  | bits + 1, start =>
    let higher := start + Nat.pow 2 bits
    if holds higher then greatest holds bits higher else greatest holds bits start

/-- The greatest rank whose magnitude is at most a quotient. -/
def rankBelow (numerator denominator : Nat) : Nat :=
  let scaled := numerator * unitsInOne
  greatest (fun rank => units rank * denominator ≤ scaled) 63 0

/-- The rank of the magnitude nearest to a quotient; of two equally near ones, the even rank. -/
def nearestRank (numerator denominator : Nat) : Nat :=
  let below := rankBelow numerator denominator
  let twice := 2 * (numerator * unitsInOne)
  let both := (units below + units (below + 1)) * denominator
  if twice < both then below
  else if both < twice then below + 1
  else if below % 2 = 0 then below else below + 1

/-- The number nearest to a quotient. -/
def ofQuotient (negative : Bool) (numerator denominator : Nat) : Binary64 :=
  ofRank negative (nearestRank numerator denominator)

/-- The number nearest to `digits * 10 ^ exponent`. Exponents that are far out of range are
answered without computing the power of ten. -/
def ofDecimal (negative : Bool) (digits : Nat) (exponent : Int) : Binary64 :=
  if digits = 0 then zero negative
  else if 0 ≤ exponent then
    if 310 < exponent then infinity negative
    else ofQuotient negative (digits * Nat.pow 10 exponent.toNat) 1
  else if digits.log2 + 1077 < 3 * (-exponent).toNat then zero negative
  else ofQuotient negative digits (Nat.pow 10 (-exponent).toNat)

end Binary64

end KotlinHighlight
