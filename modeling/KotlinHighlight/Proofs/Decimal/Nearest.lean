import Mathlib.Order.Monotone.Basic
import KotlinHighlight.Decimal.Shortest

/-! # Nearest numbers and shortest decimals

The magnitudes of the floating-point numbers grow with their ranks, so the search by halving finds the
rank below a quotient (`le_rankBelow_iff`). Which number is nearest depends on the value of a decimal
only and not on its form (`ofDecimal_mul_pow`), and the shortest decimal of a number is read as that
number (`ofDecimal_shortest`).
-/

namespace KotlinHighlight

theorem pow_mul_pow (base first second : Nat) :
    Nat.pow base first * Nat.pow base second = Nat.pow base (first + second) :=
  (Nat.pow_add base first second).symm

theorem ten_pow_eq (count : Nat) : Nat.pow 10 count = Nat.pow 2 count * Nat.pow 5 count :=
  Nat.mul_pow 2 5 count

theorem ten_pow_pos (count : Nat) : 0 < Nat.pow 10 count :=
  Nat.pow_pos (by decide)

namespace Binary64

/-- One more carries over to the quotient or stays in the remainder. -/
theorem succ_divMod {size : Nat} (positive : 0 < size) (rank : Nat) :
    ((rank + 1) / size = rank / size + 1 ∧ (rank + 1) % size = 0 ∧ rank % size + 1 = size) ∨
      ((rank + 1) / size = rank / size ∧ (rank + 1) % size = rank % size + 1) := by
  have split := Nat.div_add_mod rank size
  have within := Nat.mod_lt rank positive
  by_cases carries : rank % size + 1 = size
  · have sum : 0 + size * (rank / size + 1) = rank + 1 := by
      rw [Nat.mul_add, Nat.mul_one]
      omega
    obtain ⟨quotient, remainder⟩ := (Nat.div_mod_unique positive).mpr ⟨sum, positive⟩
    exact .inl ⟨quotient, remainder, carries⟩
  · have sum : rank % size + 1 + size * (rank / size) = rank + 1 := by omega
    exact .inr ((Nat.div_mod_unique positive).mpr ⟨sum, by omega⟩)

/-- The magnitudes grow from each rank to the next. -/
theorem units_lt_succ (rank : Nat) : units rank < units (rank + 1) := by
  unfold units
  generalize fractions : Nat.pow 2 52 = size
  have positive : 0 < size := fractions ▸ Nat.pow_pos (by decide)
  dsimp only
  by_cases small : rank < size
  · -- The first rank with an exponent has the magnitude that follows the last one without.
    by_cases last : rank + 1 = size
    · rw [if_pos small, last, if_neg (Nat.lt_irrefl size), Nat.mod_self, Nat.div_self positive]
      change rank < (0 + size) * 1
      omega
    · rw [if_pos small, if_pos (by omega)]
      exact Nat.lt_succ_self rank
  · have power : 0 < Nat.pow 2 (rank / size - 1) := Nat.pow_pos (by decide)
    have more : 1 ≤ rank / size := (Nat.one_le_div_iff positive).mpr (by omega)
    rw [if_neg small, if_neg (by omega)]
    rcases succ_divMod positive rank with ⟨quotient, remainder, carries⟩ | ⟨quotient, remainder⟩
    · have double : Nat.pow 2 (rank / size) = Nat.pow 2 (rank / size - 1) * 2 := by
        conv_lhs => rw [← Nat.sub_add_cancel more]
        exact Nat.pow_succ 2 _
      rw [quotient, remainder, Nat.add_sub_cancel, double, Nat.mul_comm _ 2, ← Nat.mul_assoc]
      exact Nat.mul_lt_mul_of_pos_right (by omega) power
    · rw [quotient, remainder]
      exact Nat.mul_lt_mul_of_pos_right (by omega) power

theorem units_strictMono : StrictMono units :=
  strictMono_nat_of_lt_succ units_lt_succ

theorem greatest_bounds (holds : Nat → Bool) (bits start : Nat) :
    start ≤ greatest holds bits start ∧ greatest holds bits start < start + Nat.pow 2 bits := by
  induction bits generalizing start with
  | zero => exact ⟨Nat.le_refl _, Nat.lt_succ_self _⟩
  | succ bits ih =>
    have twice : Nat.pow 2 (bits + 1) = Nat.pow 2 bits + Nat.pow 2 bits :=
      (Nat.pow_succ 2 bits).trans (Nat.mul_two _)
    have lower := ih start
    have upper := ih (start + Nat.pow 2 bits)
    rw [greatest]
    split
    · omega
    · omega

/-- Halving finds the greatest number that satisfies a condition, if the start does and smaller numbers
do what greater ones do. -/
theorem le_greatest_iff {holds : Nat → Bool}
    (closed : ∀ smaller greater, smaller ≤ greater → holds greater = true → holds smaller = true)
    {bits start number : Nat} (starts : holds start = true) (low : start ≤ number)
    (high : number < start + Nat.pow 2 bits) :
    number ≤ greatest holds bits start ↔ holds number = true := by
  induction bits generalizing start with
  | zero =>
    obtain rfl : number = start := Nat.le_antisymm (Nat.le_of_lt_succ high) low
    exact iff_of_true (Nat.le_refl _) starts
  | succ bits ih =>
    have twice : Nat.pow 2 (bits + 1) = Nat.pow 2 bits + Nat.pow 2 bits :=
      (Nat.pow_succ 2 bits).trans (Nat.mul_two _)
    rw [greatest]
    by_cases half : holds (start + Nat.pow 2 bits) = true
    · rw [if_pos half]
      by_cases before : number < start + Nat.pow 2 bits
      · have bounds := greatest_bounds holds bits (start + Nat.pow 2 bits)
        exact iff_of_true (by omega) (closed number _ (Nat.le_of_lt before) half)
      · exact ih half (by omega) (by omega)
    · rw [if_neg half]
      by_cases before : number < start + Nat.pow 2 bits
      · exact ih starts low before
      · have bounds := greatest_bounds holds bits start
        refine iff_of_false (by omega) fun further => half ?_
        exact closed _ number (by omega) further

-- With a literal for the exponent the power would be computed wherever it is compared.
theorem unitsInOne_eq_pow {places : Nat} (count : 1074 = places) :
    unitsInOne = Nat.pow 2 places := by
  unfold unitsInOne
  exact congrArg _ count

theorem unitsInOne_pos : 0 < unitsInOne := by
  decide +kernel

/-- The rank below a quotient is the last one whose magnitude is at most the quotient. -/
theorem le_rankBelow_iff {rank : Nat} (within : rank < Nat.pow 2 63) (numerator denominator : Nat) :
    rank ≤ rankBelow numerator denominator ↔
      units rank * denominator ≤ numerator * unitsInOne := by
  have zero : units 0 = 0 := rfl
  rw [rankBelow, le_greatest_iff _ _ (Nat.zero_le rank) (by omega), decide_eq_true_eq]
  · intro smaller greater ordered holds
    rw [decide_eq_true_eq] at holds ⊢
    exact (Nat.mul_le_mul_right _ (units_strictMono.monotone ordered)).trans holds
  · rw [decide_eq_true_eq, zero, Nat.zero_mul]
    exact Nat.zero_le _

theorem rankBelow_mul_right (numerator denominator : Nat) {factor : Nat} (positive : 0 < factor) :
    rankBelow (numerator * factor) (denominator * factor) = rankBelow numerator denominator := by
  unfold rankBelow
  generalize unitsInOne = scale
  simp only [Nat.mul_right_comm numerator factor scale, ← Nat.mul_assoc,
    Nat.mul_le_mul_right_iff positive]

/-- Both parts of a quotient can be multiplied. -/
theorem nearestRank_mul_right (numerator denominator : Nat) {factor : Nat} (positive : 0 < factor) :
    nearestRank (numerator * factor) (denominator * factor) = nearestRank numerator denominator := by
  unfold nearestRank
  rw [rankBelow_mul_right numerator denominator positive]
  generalize unitsInOne = scale, rankBelow numerator denominator = below
  simp only [Nat.mul_right_comm numerator factor scale, ← Nat.mul_assoc, Nat.mul_lt_mul_right positive]

theorem nearestRank_congr {numerator denominator other factor : Nat} (positive : 0 < denominator)
    (positive' : 0 < factor) (same : numerator * factor = other * denominator) :
    nearestRank numerator denominator = nearestRank other factor := by
  rw [← nearestRank_mul_right numerator denominator positive', same, Nat.mul_comm denominator,
    nearestRank_mul_right other factor positive]

theorem nearestRank_units {rank : Nat} (within : rank + 1 < Nat.pow 2 63) :
    nearestRank (units rank) unitsInOne = rank := by
  have positive := unitsInOne_pos
  have next := units_lt_succ rank
  have below : rankBelow (units rank) unitsInOne = rank := by
    apply Nat.le_antisymm
    · rw [← Nat.not_lt, ← Nat.succ_le_iff, le_rankBelow_iff within,
        Nat.mul_le_mul_right_iff positive, Nat.not_le]
      exact next
    · rw [le_rankBelow_iff (by omega)]
  rw [nearestRank, below, ← Nat.mul_assoc, if_pos]
  exact Nat.mul_lt_mul_of_pos_right (by omega) positive

/-- A quotient of less than half of the smallest number is rounded to zero. -/
theorem nearestRank_eq_zero {numerator denominator : Nat}
    (small : 2 * (numerator * unitsInOne) < denominator) : nearestRank numerator denominator = 0 := by
  have one : units 1 = 1 := rfl
  have zero : units 0 = 0 := rfl
  have below : rankBelow numerator denominator = 0 := by
    rw [← Nat.lt_one_iff, ← Nat.not_le, le_rankBelow_iff (by decide), one, Nat.one_mul]
    omega
  rw [nearestRank, below, one, zero, Nat.zero_add, Nat.one_mul]
  exact if_pos small

/-- A quotient that is at least the first magnitude out of range is rounded to infinity. -/
theorem ofQuotient_eq_infinity (negative : Bool) {numerator denominator : Nat}
    (great : units rankCount * denominator ≤ numerator * unitsInOne) :
    ofQuotient negative numerator denominator = infinity negative := by
  have below : rankCount ≤ rankBelow numerator denominator :=
    (le_rankBelow_iff (by decide) numerator denominator).mpr great
  have nearest : ¬nearestRank numerator denominator < rankCount := by
    rw [nearestRank]
    split
    · omega
    · split
      · omega
      · split <;> omega
  exact dif_neg nearest

theorem ofQuotient_eq_zero (negative : Bool) {numerator denominator : Nat}
    (small : 2 * (numerator * unitsInOne) < denominator) :
    ofQuotient negative numerator denominator = zero negative := by
  rw [ofQuotient, nearestRank_eq_zero small]
  rfl

/-- Far behind the point all digits together are less than half of a small number. -/
theorem digits_lt_ten_pow {digits bits places : Nat} (tiny : digits.log2 + (bits + 3) < 3 * places) :
    2 * (digits * Nat.pow 2 bits) < Nat.pow 10 places :=
  calc 2 * (digits * Nat.pow 2 bits)
    _ < 2 * (Nat.pow 2 (digits.log2 + 1) * Nat.pow 2 bits) := by
      apply Nat.mul_lt_mul_of_pos_left _ (by decide)
      exact Nat.mul_lt_mul_of_pos_right Nat.lt_log2_self (Nat.pow_pos (by decide))
    _ = Nat.pow 2 (digits.log2 + 1 + bits + 1) := by
      rw [pow_mul_pow, Nat.mul_comm 2]
      exact (Nat.pow_succ 2 _).symm
    _ ≤ Nat.pow 2 (3 * places) := Nat.pow_le_pow_right (by decide) (by omega)
    _ = Nat.pow 8 places := Nat.pow_mul 2 3 places
    _ ≤ Nat.pow 10 places := Nat.pow_le_pow_left (by decide) places

/-- The answers for exponents that are far out of range are those of the whole computation. -/
theorem ofDecimal_eq (negative : Bool) (digits : Nat) (exponent : Int) :
    ofDecimal negative digits exponent =
      ofQuotient negative (Decimal.shift digits 1 exponent).1 (Decimal.shift digits 1 exponent).2 := by
  rw [ofDecimal, Decimal.shift]
  by_cases zero : digits = 0
  · subst zero
    rw [if_pos rfl]
    split
    · refine (ofQuotient_eq_zero negative ?_).symm
      rw [Nat.zero_mul]
      exact Nat.mul_pos Nat.one_pos (ten_pow_pos _)
    · exact (ofQuotient_eq_zero negative (by simp)).symm
  rw [if_neg zero]
  by_cases below : exponent < 0
  · rw [if_neg (Int.not_le.mpr below), if_pos below, Nat.one_mul]
    split
    · rename_i tiny
      refine (ofQuotient_eq_zero negative ?_).symm
      obtain ⟨places, count⟩ : ∃ places, 1074 = places := ⟨_, rfl⟩
      rw [unitsInOne_eq_pow count]
      dsimp only at tiny ⊢
      exact digits_lt_ten_pow (by omega)
    · rfl
  · rw [if_pos (Int.not_lt.mp below), if_neg below]
    split
    · rename_i huge
      refine (ofQuotient_eq_infinity negative ?_).symm
      obtain ⟨places, count⟩ : ∃ places, places = 311 := ⟨_, rfl⟩
      have least : units rankCount ≤ Nat.pow 10 places * unitsInOne := by
        rw [count]
        decide +kernel
      have great : Nat.pow 10 places ≤ digits * Nat.pow 10 exponent.toNat :=
        (Nat.pow_le_pow_right (by decide) (by omega)).trans
          (Nat.le_mul_of_pos_left _ (Nat.pos_of_ne_zero zero))
      rw [Nat.mul_one]
      exact least.trans (Nat.mul_le_mul_right unitsInOne great)
    · rfl

/-- Zeros at the end of the digits can be left to the power of ten. -/
theorem ofDecimal_mul_pow (negative : Bool) (digits zeros : Nat) (exponent : Int) :
    ofDecimal negative (digits * Nat.pow 10 zeros) exponent =
      ofDecimal negative digits (exponent + zeros) := by
  rw [ofDecimal_eq, ofDecimal_eq, ofQuotient, ofQuotient]
  apply congrArg (ofRank negative)
  by_cases first : exponent < 0
  · by_cases second : exponent + zeros < 0
    · rw [Decimal.shift, Decimal.shift, if_pos first, if_pos second]
      apply nearestRank_congr (Nat.mul_pos Nat.one_pos (ten_pow_pos _))
        (Nat.mul_pos Nat.one_pos (ten_pow_pos _))
      have same : zeros + (-(exponent + zeros)).toNat = (-exponent).toNat := by omega
      rw [Nat.one_mul, Nat.one_mul, Nat.mul_assoc, pow_mul_pow, same]
    · rw [Decimal.shift, Decimal.shift, if_pos first, if_neg second]
      apply nearestRank_congr (Nat.mul_pos Nat.one_pos (ten_pow_pos _)) Nat.one_pos
      have same : zeros = (exponent + zeros).toNat + (-exponent).toNat := by omega
      rw [Nat.one_mul, Nat.mul_one, Nat.mul_assoc, pow_mul_pow, ← same]
  · have same : zeros + exponent.toNat = (exponent + zeros).toNat := by omega
    rw [Decimal.shift, Decimal.shift, if_neg first, if_neg (by omega), Nat.mul_assoc, pow_mul_pow,
      same]

/-- A decimal that is read as a number has the rank of the number as its nearest rank, so the sign
makes no difference. -/
theorem ofDecimal_of_false {digits : Nat} {exponent : Int} {rank : Fin rankCount}
    (read : ofDecimal false digits exponent = finite false rank) (negative : Bool) :
    ofDecimal negative digits exponent = finite negative rank := by
  rw [ofDecimal_eq, ofQuotient, ofRank] at read ⊢
  split at read
  · rename_i within
    obtain rfl := (finite.inj read).2
    rw [dif_pos within]
  · exact absurd read nofun

end Binary64

namespace Decimal

/-- What has some binary places has as many decimal ones. -/
theorem ofDecimal_five_pow (number : Nat) {places : Nat} (positive : 0 < places) :
    Binary64.ofDecimal false (number * Nat.pow 5 places) (-places) =
      Binary64.ofQuotient false number (Nat.pow 2 places) := by
  rw [Binary64.ofDecimal_eq, shift, if_pos (by omega), Int.neg_neg, Int.toNat_natCast, Nat.one_mul,
    ten_pow_eq, Binary64.ofQuotient, Binary64.ofQuotient]
  exact congrArg (Binary64.ofRank false)
    (Binary64.nearestRank_mul_right number (Nat.pow 2 places) (Nat.pow_pos (by decide)))

/-- The decimal that equals a magnitude is read as its number. -/
theorem ofDecimal_exact {rank : Nat} (within : rank < Binary64.rankCount) :
    Binary64.ofDecimal false (exact rank).digits (exact rank).exponent =
      Binary64.ofRank false rank := by
  have room : rank + 1 < Nat.pow 2 63 := by
    have last : Binary64.rankCount < Nat.pow 2 63 := by decide
    omega
  have nearest : Binary64.ofQuotient false (Binary64.units rank) Binary64.unitsInOne =
      Binary64.ofRank false rank := by
    rw [Binary64.ofQuotient, Binary64.nearestRank_units room]
  obtain ⟨places, count⟩ : ∃ places, 1074 = places := ⟨_, rfl⟩
  have decimal : exact rank = ⟨Binary64.units rank * Nat.pow 5 places, -places⟩ := by
    unfold exact
    exact (Decimal.mk.injEq ..).mpr ⟨congrArg _ (congrArg _ count), by omega⟩
  rw [Binary64.unitsInOne_eq_pow count] at nearest
  rw [decimal, ofDecimal_five_pow _ (by omega), nearest]

/-- The shortest decimal of a number is read as that number. -/
theorem ofDecimal_shortest {rank : Nat} (within : rank < Binary64.rankCount) :
    Binary64.ofDecimal false (shortest rank).digits (shortest rank).exponent =
      Binary64.ofRank false rank := by
  rw [shortest]
  cases found : (List.range 17).findSome? _ with
  | none =>
    rw [Option.getD_none]
    exact ofDecimal_exact within
  | some decimal =>
    obtain ⟨count, -, tried⟩ := List.exists_of_findSome?_eq_some found
    have read := List.find?_some tried
    rw [readsAs, beq_iff_eq] at read
    rw [Option.getD_some]
    exact read

end Decimal

end KotlinHighlight
