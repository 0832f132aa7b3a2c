import Mathlib.Data.List.TakeWhile
import KotlinHighlight.Decimal.Notation
import KotlinHighlight.Proofs.Decimal.Nearest

/-! # Written numbers are read

A spelling has one text (`Spelling.text`), and that text is read as the spelling up to whatever cannot
go on with it (`spelling?_text_append`). A whole number is written as a spelling of its digits
(`signedDigits_eq`), and a finite floating-point number as a spelling with a fraction or an exponent
whose nearest number it is (`exists_spelling`).
-/

namespace KotlinHighlight.Decimal

def IsDigits (text : Text) : Prop :=
  ∀ c ∈ text, c.isDigit = true

theorem IsDigits.append {first second : Text} (one : IsDigits first) (other : IsDigits second) :
    IsDigits (first ++ second) :=
  List.forall_mem_append.mpr ⟨one, other⟩

theorem isDigits_zeros (count : Nat) : IsDigits (List.replicate count '0') := by
  intro c member
  rw [List.eq_of_mem_replicate member]
  rfl

theorem isDigits_digitsOf (number : Nat) : IsDigits (digitsOf number) :=
  fun _ => isDigit_of_mem_digitsOf

/-- Whether a text goes on with something other than a digit, if it goes on at all. -/
def StopsDigits (text : Text) : Prop :=
  ∀ c, text.head? = some c → c.isDigit = false

theorem takeWhile_isDigit_append {digits rest : Text} (all : IsDigits digits)
    (stops : StopsDigits rest) :
    (digits ++ rest).takeWhile Char.isDigit = digits ∧
      (digits ++ rest).dropWhile Char.isDigit = rest := by
  have noDigits : rest.takeWhile Char.isDigit = [] ∧ rest.dropWhile Char.isDigit = rest := by
    cases rest with
    | nil => exact ⟨rfl, rfl⟩
    | cons c rest =>
      have noDigit : ¬c.isDigit = true := Bool.eq_false_iff.mp (stops c rfl)
      exact ⟨List.takeWhile_cons_of_neg noDigit, List.dropWhile_cons_of_neg noDigit⟩
  rw [List.takeWhile_append_of_pos all, List.dropWhile_append_of_pos all, noDigits.1, noDigits.2,
    List.append_nil]
  exact ⟨rfl, rfl⟩

section Digits

theorem ofDigits_append_zeros (digits : Text) (count : Nat) :
    ofDigits (digits ++ List.replicate count '0') = ofDigits digits * Nat.pow 10 count := by
  rw [ofDigits, Nat.ofDigitChars_append, Nat.ofDigitChars_replicate_zero, Nat.mul_comm]
  rfl

theorem ofDigits_zeros_append (digits : Text) (count : Nat) :
    ofDigits (List.replicate count '0' ++ digits) = ofDigits digits := by
  rw [ofDigits, Nat.ofDigitChars_append, Nat.ofDigitChars_replicate_zero, Nat.mul_zero, ofDigits]

theorem ofDigits_zero_cons (digits : Text) : ofDigits ('0' :: digits) = ofDigits digits :=
  ofDigits_zeros_append digits 1

theorem digitsOf_ne_nil (number : Nat) : digitsOf number ≠ [] :=
  Nat.toDigits_ne_nil

theorem head?_digitsOf {number : Nat} (positive : number ≠ 0) :
    (digitsOf number).head? ≠ some '0' := by
  induction number using Nat.strongRecOn with
  | ind number ih =>
    by_cases small : number < 10
    · rw [digitsOf, Nat.toDigits_of_lt_base small]
      intro zero
      have digits : ∀ digit < 10, digit ≠ 0 → Nat.digitChar digit ≠ '0' := by decide
      exact digits number small positive (Option.some.inj zero)
    · rw [digitsOf, Nat.toDigits_of_base_le (by decide) (by omega), List.head?_append]
      intro zero
      rcases Option.or_eq_some_iff.mp zero with first | ⟨empty, -⟩
      · exact ih (number / 10) (by omega) (by omega) first
      · exact digitsOf_ne_nil (number / 10) (List.head?_eq_none_iff.mp empty)

end Digits

/-- Whether digits can stand before a point: a single zero, or digits that do not start with one. -/
structure IsWhole (digits : Text) : Prop where
  all : IsDigits digits
  nonempty : digits ≠ []
  leading : digits.head? = some '0' → digits = ['0']

theorem isWhole_zero : IsWhole ['0'] :=
  ⟨isDigits_zeros 1, List.cons_ne_nil _ _, fun _ => rfl⟩

theorem isWhole_digitsOf (number : Nat) : IsWhole (digitsOf number) where
  all := isDigits_digitsOf number
  nonempty := digitsOf_ne_nil number
  leading starts := by
    by_cases zero : number = 0
    · rw [zero]
      rfl
    · exact absurd starts (head?_digitsOf zero)

theorem wholePart?_append {digits rest : Text} (whole : IsWhole digits) (stops : StopsDigits rest) :
    wholePart? (digits ++ rest) = some (digits, rest) := by
  obtain ⟨all, nonempty, leading⟩ := whole
  cases digits with
  | nil => exact absurd rfl nonempty
  | cons c digits =>
    rw [List.cons_append, wholePart?]
    by_cases zero : c = '0'
    · obtain rfl := zero
      obtain rfl := (List.cons.inj (leading rfl)).2
      rfl
    · obtain ⟨isDigit, others⟩ := List.forall_mem_cons.mp all
      obtain ⟨taken, left⟩ := takeWhile_isDigit_append others stops
      rw [if_neg zero, if_pos isDigit, taken, left]

def fractionText : Option Text → Text
  | none => []
  | some digits => '.' :: digits

def exponentText : Option Int → Text
  | none => []
  | some power =>
    'e' :: (if power < 0 then '-' else '+') ::
      (List.replicate (2 - (digitsOf power.natAbs).length) '0' ++ digitsOf power.natAbs)

/-- Whether a text does not go on with a number. -/
def EndsNumber (text : Text) : Prop :=
  ∀ c, text.head? = some c → c.isDigit = false ∧ c ≠ '.' ∧ c ≠ 'e' ∧ c ≠ 'E'

theorem EndsNumber.stopsDigits {text : Text} (ends : EndsNumber text) : StopsDigits text :=
  fun c next => (ends c next).1

theorem power?_append (power : Int) {rest : Text} (stops : StopsDigits rest) :
    power? ((if power < 0 then '-' else '+') ::
      (List.replicate (2 - (digitsOf power.natAbs).length) '0' ++ digitsOf power.natAbs) ++ rest) =
        some (power, rest) := by
  generalize padding : 2 - (digitsOf power.natAbs).length = zeros
  have all := (isDigits_zeros zeros).append (isDigits_digitsOf power.natAbs)
  obtain ⟨taken, left⟩ := takeWhile_isDigit_append all stops
  have value : ofDigits (List.replicate zeros '0' ++ digitsOf power.natAbs) = power.natAbs := by
    rw [ofDigits_zeros_append, ofDigits_digitsOf]
  have nonempty : List.replicate zeros '0' ++ digitsOf power.natAbs ≠ [] :=
    List.append_ne_nil_of_right_ne_nil _ (digitsOf_ne_nil _)
  generalize List.replicate zeros '0' ++ digitsOf power.natAbs = digits at taken left value nonempty
  cases digits with
  | nil => exact absurd rfl nonempty
  | cons c digits =>
    by_cases below : power < 0
    · rw [if_pos below, List.cons_append, power?]
      dsimp only
      rw [taken, left]
      dsimp only
      rw [value, if_pos rfl]
      congr 2
      omega
    · rw [if_neg below, List.cons_append, power?]
      dsimp only
      rw [taken, left]
      dsimp only
      rw [value, if_neg Bool.false_ne_true]
      congr 2
      omega

theorem exponentPart_append (exponent : Option Int) {rest : Text} (ends : EndsNumber rest) :
    exponentPart (exponentText exponent ++ rest) = (exponent, rest) := by
  cases exponent with
  | none =>
    cases rest with
    | nil => rfl
    | cons c rest =>
      obtain ⟨-, -, small, capital⟩ := ends c rfl
      exact if_neg (not_or.mpr ⟨small, capital⟩)
  | some power =>
    have read := power?_append power ends.stopsDigits
    rw [exponentText, List.cons_append, exponentPart, if_pos (.inl rfl), read]

/-- Whether a fraction has digits, if there is one. -/
def IsFraction (fraction : Option Text) : Prop :=
  ∀ digits, fraction = some digits → IsDigits digits ∧ digits ≠ []

theorem isFraction_none : IsFraction none :=
  fun _ given => absurd given nofun

theorem isFraction_some {digits : Text} (all : IsDigits digits) (nonempty : digits ≠ []) :
    IsFraction (some digits) := by
  rintro _ ⟨⟩
  exact ⟨all, nonempty⟩

theorem fractionPart_append {fraction : Option Text} (valid : IsFraction fraction) {rest : Text}
    (stops : StopsDigits rest) (noPoint : rest.head? ≠ some '.') :
    fractionPart (fractionText fraction ++ rest) = (fraction, rest) := by
  cases fraction with
  | none =>
    rw [fractionText, List.nil_append]
    unfold fractionPart
    split
    · exact absurd rfl noPoint
    · rfl
  | some digits =>
    obtain ⟨all, nonempty⟩ := valid digits rfl
    obtain ⟨taken, left⟩ := takeWhile_isDigit_append all stops
    rw [fractionText, List.cons_append, fractionPart, taken, left]
    cases digits with
    | nil => exact absurd rfl nonempty
    | cons c digits => rfl

/-- Where a number ends or an exponent starts, its digits end and no point follows. -/
theorem stops_exponentText_append (exponent : Option Int) {rest : Text} (ends : EndsNumber rest) :
    StopsDigits (exponentText exponent ++ rest) ∧
      (exponentText exponent ++ rest).head? ≠ some '.' := by
  cases exponent with
  | none => exact ⟨ends.stopsDigits, fun point => (ends _ point).2.1 rfl⟩
  | some power =>
    refine ⟨fun c next => ?_, fun point => absurd (Option.some.inj point) (by decide)⟩
    rw [← Option.some.inj next]
    rfl

theorem stops_fractionText_append (fraction : Option Text) {rest : Text} (stops : StopsDigits rest) :
    StopsDigits (fractionText fraction ++ rest) := by
  cases fraction with
  | none => exact stops
  | some digits =>
    intro c next
    rw [← Option.some.inj next]
    rfl

namespace Spelling

def text (spelling : Spelling) : Text :=
  (if spelling.negative then ['-'] else []) ++
    (spelling.whole ++ (fractionText spelling.fraction ++ exponentText spelling.exponent))

/-- Whether a number can be spelled so. -/
structure Valid (spelling : Spelling) : Prop where
  whole : IsWhole spelling.whole
  fraction : IsFraction spelling.fraction

end Spelling

/-- The text of a spelling is read as the spelling, up to what cannot go on with it. -/
theorem spelling?_text_append {spelling : Spelling} (valid : spelling.Valid) {rest : Text}
    (ends : EndsNumber rest) : spelling? (spelling.text ++ rest) = some (spelling, rest) := by
  obtain ⟨negative, whole, fraction, exponent⟩ := spelling
  obtain ⟨stops, noPoint⟩ := stops_exponentText_append exponent ends
  have first := wholePart?_append valid.whole (stops_fractionText_append fraction stops)
  have second := fractionPart_append valid.fraction stops noPoint
  have third := exponentPart_append exponent ends
  dsimp only at first second third
  rw [Spelling.text]
  dsimp only
  rw [List.append_assoc, List.append_assoc, List.append_assoc]
  cases negative with
  | true =>
    rw [if_pos rfl, List.singleton_append, spelling?]
    dsimp only
    rw [first, Option.map_some]
    dsimp only
    rw [second]
    dsimp only
    rw [third]
  | false =>
    -- The first digit is no sign.
    have unsigned : ∀ more, whole ++ (fractionText fraction ++ (exponentText exponent ++ rest)) ≠
        '-' :: more := by
      intro more same
      obtain ⟨c, digits, rfl⟩ := List.exists_cons_of_ne_nil valid.whole.nonempty
      have isDigit := valid.whole.all c List.mem_cons_self
      rw [(List.cons.inj same).1] at isDigit
      exact absurd isDigit (by decide)
    rw [if_neg Bool.false_ne_true, List.nil_append, spelling?, first, Option.map_some]
    · dsimp only
      rw [second]
      dsimp only
      rw [third]
    · exact unsigned

def wholeSpelling (value : Int) : Spelling :=
  ⟨value < 0, digitsOf value.natAbs, none, none⟩

theorem valid_wholeSpelling (value : Int) : (wholeSpelling value).Valid :=
  ⟨isWhole_digitsOf _, isFraction_none⟩

theorem signedDigits_eq (value : Int) : signedDigits value = (wholeSpelling value).text := by
  cases value with
  | ofNat number =>
    simp [signedDigits, wholeSpelling, Spelling.text, fractionText, exponentText]
  | negSucc number =>
    have negative : Int.negSucc number < 0 := Int.negSucc_lt_zero number
    simp [signedDigits, wholeSpelling, Spelling.text, fractionText, exponentText, negative]

/-- The digits of a decimal that count, and the zeros that were left away behind them. -/
theorem exists_significant_eq (decimal : Decimal) :
    ∃ zeros, digitsOf decimal.digits =
        (significant decimal).1 ++ List.replicate zeros '0' ∧
      (significant decimal).2 = (significant decimal).1.length + (zeros + decimal.exponent) := by
  have split := List.takeWhile_append_dropWhile (p := (· == '0')) (l := (digitsOf decimal.digits).reverse)
  have zeros := List.eq_replicate_of_mem (a := '0')
    (l := (digitsOf decimal.digits).reverse.takeWhile (· == '0'))
    fun c member => beq_iff_eq.mp (List.mem_takeWhile_imp (p := (· == '0')) member)
  generalize (digitsOf decimal.digits).reverse.takeWhile (· == '0') = taken at split zeros
  have whole : digitsOf decimal.digits =
      (significant decimal).1 ++ List.replicate taken.length '0' := by
    rw [← List.reverse_inj, ← split, significant, List.reverse_append, List.reverse_reverse,
      List.reverse_replicate, ← zeros]
  refine ⟨taken.length, whole, ?_⟩
  have count := congrArg List.length whole
  rw [List.length_append, List.length_replicate] at count
  have place : (significant decimal).2 = (digitsOf decimal.digits).length + decimal.exponent := rfl
  omega

section Magnitude

variable {rank : Fin Binary64.rankCount} (positive : rank.val ≠ 0)
include positive

theorem digits_shortest_ne_zero : (shortest rank).digits ≠ 0 := by
  intro zero
  have read := ofDecimal_shortest rank.isLt
  rw [zero, Binary64.ofDecimal, if_pos rfl, Binary64.ofRank, dif_pos rank.isLt] at read
  exact positive (congrArg Fin.val (Binary64.finite.inj read).2).symm

/-- The digits of a shortest decimal that count do not start with a zero, and with the point at its
place they are read as the number. -/
theorem significant_shortest :
    IsDigits (significant (shortest rank)).1 ∧ (significant (shortest rank)).1 ≠ [] ∧
      (significant (shortest rank)).1.head? ≠ some '0' ∧
      ∀ negative, Binary64.ofDecimal negative (ofDigits (significant (shortest rank)).1)
        ((significant (shortest rank)).2 - (significant (shortest rank)).1.length) =
          .finite negative rank := by
  obtain ⟨zeros, whole, place⟩ := exists_significant_eq (shortest rank)
  have nonzero := digits_shortest_ne_zero positive
  have read := ofDecimal_shortest rank.isLt
  generalize (significant (shortest rank)).1 = digits,
    (significant (shortest rank)).2 = point at whole place
  have all : IsDigits (digits ++ List.replicate zeros '0') := whole ▸ isDigits_digitsOf _
  have value := ofDigits_digitsOf (shortest rank).digits
  rw [whole, ofDigits_append_zeros] at value
  have nonempty : digits ≠ [] := by
    rintro rfl
    exact nonzero (value.symm.trans (Nat.zero_mul _))
  refine ⟨(List.forall_mem_append.mp all).1, nonempty, fun zero => ?_, fun negative => ?_⟩
  · apply head?_digitsOf nonzero
    rw [whole, List.head?_append, zero]
    rfl
  · rw [Binary64.ofRank, dif_pos rank.isLt, ← value, Binary64.ofDecimal_mul_pow] at read
    have exponent : point - digits.length = (shortest rank).exponent + zeros := by omega
    rw [exponent]
    exact Binary64.ofDecimal_of_false read negative

end Magnitude

/-- Whether a spelling shows that it is of no whole number. -/
def Spelling.IsFloat (spelling : Spelling) : Prop :=
  spelling.fraction ≠ none ∨ spelling.exponent ≠ none

section Notation

variable {digits : Text} (all : IsDigits digits) (nonempty : digits ≠ [])
  (leading : digits.head? ≠ some '0') (negative : Bool)
include all nonempty leading

/-- Digits with a point are the text of a spelling with a fraction. -/
theorem exists_spelling_positional (point : Int) :
    ∃ spelling : Spelling, spelling.Valid ∧ spelling.IsFloat ∧
      spelling.text = (if negative then ['-'] else []) ++ positional digits point ∧
      spelling.toBinary64 = Binary64.ofDecimal negative (ofDigits digits) (point - digits.length) := by
  rw [positional]
  by_cases small : point ≤ 0
  · have zeros := isDigits_zeros (-point).toNat
    refine ⟨⟨negative, ['0'], some (List.replicate (-point).toNat '0' ++ digits), none⟩,
      ⟨isWhole_zero, isFraction_some (zeros.append all)
        (List.append_ne_nil_of_right_ne_nil _ nonempty)⟩, .inl nofun, ?_, ?_⟩
    · rw [if_pos small]
      simp [Spelling.text, fractionText, exponentText]
    · rw [Spelling.toBinary64, Option.getD_some, Option.getD_none, List.singleton_append,
        ofDigits_zero_cons, ofDigits_zeros_append, List.length_append, List.length_replicate]
      congr 1
      omega
  · by_cases inside : point < digits.length
    · have split := List.take_append_drop point.toNat digits
      have first := (List.forall_mem_append.mp (split ▸ all)).1
      have second := (List.forall_mem_append.mp (split ▸ all)).2
      have whole : digits.take point.toNat ≠ [] := by
        rw [Ne, List.take_eq_nil_iff]
        exact not_or.mpr ⟨by omega, nonempty⟩
      have more : digits.drop point.toNat ≠ [] := by
        rw [Ne, List.drop_eq_nil_iff]
        omega
      refine ⟨⟨negative, digits.take point.toNat, some (digits.drop point.toNat), none⟩,
        ⟨⟨first, whole, fun zero => ?_⟩, isFraction_some second more⟩, .inl nofun, ?_, ?_⟩
      · rw [List.head?_take, if_neg (by omega)] at zero
        exact absurd zero leading
      · rw [if_neg small, if_pos inside]
        simp [Spelling.text, fractionText, exponentText]
      · rw [Spelling.toBinary64, Option.getD_some, Option.getD_none, split, List.length_drop]
        congr 1
        omega
    · have zeros := isDigits_zeros (point.toNat - digits.length)
      refine ⟨⟨negative, digits ++ List.replicate (point.toNat - digits.length) '0', some ['0'], none⟩,
        ⟨⟨all.append zeros, List.append_ne_nil_of_left_ne_nil nonempty _, fun zero => ?_⟩,
          isFraction_some (isDigits_zeros 1) (List.cons_ne_nil _ _)⟩, .inl nofun, ?_, ?_⟩
      · rw [List.head?_append] at zero
        rcases Option.or_eq_some_iff.mp zero with first | ⟨empty, -⟩
        · exact absurd first leading
        · exact absurd (List.head?_eq_none_iff.mp empty) nonempty
      · rw [if_neg small, if_neg inside]
        simp [Spelling.text, fractionText, exponentText]
      · have more : ['0'] = List.replicate 1 '0' := rfl
        rw [Spelling.toBinary64, Option.getD_some, Option.getD_none, more, List.append_assoc,
          List.replicate_append_replicate, ofDigits_append_zeros, Binary64.ofDecimal_mul_pow,
          List.length_replicate]
        congr 1
        omega

/-- Digits with a power of ten are the text of a spelling with an exponent. -/
theorem exists_spelling_withExponent (exponent : Int) :
    ∃ spelling : Spelling, spelling.Valid ∧ spelling.IsFloat ∧
      spelling.text = (if negative then ['-'] else []) ++ withExponent digits exponent ∧
      spelling.toBinary64 =
        Binary64.ofDecimal negative (ofDigits digits) (exponent + 1 - digits.length) := by
  obtain ⟨c, others, rfl⟩ := List.exists_cons_of_ne_nil nonempty
  obtain ⟨isDigit, allOthers⟩ := List.forall_mem_cons.mp all
  have whole : IsWhole [c] :=
    ⟨List.forall_mem_singleton.mpr isDigit, List.cons_ne_nil _ _, fun zero => absurd zero leading⟩
  cases others with
  | nil =>
    refine ⟨⟨negative, [c], none, some exponent⟩, ⟨whole, isFraction_none⟩, .inr nofun, ?_, ?_⟩
    · simp [Spelling.text, fractionText, exponentText, withExponent]
    · rw [Spelling.toBinary64, Option.getD_none, Option.getD_some, List.append_nil]
      congr 1
      simp
  | cons d others =>
    refine ⟨⟨negative, [c], some (d :: others), some exponent⟩,
      ⟨whole, isFraction_some allOthers (List.cons_ne_nil _ _)⟩, .inr nofun, ?_, ?_⟩
    · simp [Spelling.text, fractionText, exponentText, withExponent]
    · rw [Spelling.toBinary64, Option.getD_some, Option.getD_some, List.singleton_append]
      congr 1
      simp only [List.length_cons]
      omega

end Notation

/-- A finite floating-point number is written as a spelling that it is the nearest number to. -/
theorem exists_spelling (names : SpecialNames) (negative : Bool) (rank : Fin Binary64.rankCount) :
    ∃ spelling : Spelling, spelling.Valid ∧ spelling.IsFloat ∧
      spelling.text = floatText names (.finite negative rank) ∧
      spelling.toBinary64 = .finite negative rank := by
  have signed : floatText names (.finite negative rank) =
      (if negative then ['-'] else []) ++ magnitudeText rank := by
    cases negative <;> rfl
  rw [signed, magnitudeText]
  by_cases zero : rank.val = 0
  · refine ⟨⟨negative, ['0'], some ['0'], none⟩,
      ⟨isWhole_zero, isFraction_some (isDigits_zeros 1) (List.cons_ne_nil _ _)⟩, .inl nofun, ?_, ?_⟩
    · rw [if_pos zero]
      rfl
    · have same : rank = ⟨0, by decide⟩ := Fin.ext zero
      rw [same]
      rfl
  · obtain ⟨all, nonempty, leading, read⟩ := significant_shortest zero
    rw [if_neg zero]
    generalize significant (shortest rank) = found at all nonempty leading read
    obtain ⟨digits, point⟩ := found
    dsimp only at all nonempty leading read ⊢
    by_cases near : -4 < point ∧ point ≤ 16
    · rw [if_pos near]
      obtain ⟨spelling, valid, float, text, value⟩ :=
        exists_spelling_positional all nonempty leading negative point
      exact ⟨spelling, valid, float, text, value.trans (read negative)⟩
    · rw [if_neg near]
      obtain ⟨spelling, valid, float, text, value⟩ :=
        exists_spelling_withExponent all nonempty leading negative (point - 1)
      rw [Int.sub_add_cancel] at value
      exact ⟨spelling, valid, float, text, value.trans (read negative)⟩

end KotlinHighlight.Decimal
