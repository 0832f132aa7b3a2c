import KotlinHighlight.Number
import KotlinHighlight.Proofs.Pattern.Run

/-! # The characters of a number

A number takes word characters, points and signs only (`within_isPart`), and in another base than ten
word characters only.
-/

namespace KotlinHighlight

namespace Pattern

theorem advances_one (accepts : Char → Bool) : (one accepts).Advances := by
  intro cursor last member
  obtain ⟨c, -, reads⟩ := mem_ends_one.mp member
  rw [reads.position, List.length_singleton]
  exact Nat.lt_succ_self _

theorem Within.mono {narrow wide : Char → Bool} (wider : ∀ c, narrow c = true → wide c = true)
    {pattern : Pattern} (within : pattern.Within narrow) : pattern.Within wide := by
  induction pattern with
  | empty => trivial
  | one class' => exact fun c taken => wider c (within c taken)
  | both first second ihFirst ihSecond => exact ⟨ihFirst within.1, ihSecond within.2⟩
  | either first second ihFirst ihSecond => exact ⟨ihFirst within.1, ihSecond within.2⟩
  | many body ih => exact ⟨ih within.1, within.2⟩
  | few body => exact within.elim
  | boundary => trivial

end Pattern

namespace Number

open Pattern
open Unicode (isDecimal isWord)

/-- Whether a number may have a character. -/
def isPart (c : Char) : Bool :=
  isWord c || c == '.' || c == '+' || c == '-'

theorem isPart_of_isWord {c : Char} (word : isWord c = true) : isPart c = true := by
  simp [isPart, word]

theorem within_anyOf {accepts : Char → Bool} {choices : List Char}
    (all : choices.all accepts = true) : (anyOf choices).Within accepts :=
  fun c taken => List.all_eq_true.mp all c (List.contains_iff_mem.mp taken)

theorem within_separated_digits (isDigit : Char → Bool) :
    (separated isDigit).Within fun c => isDigit c || c == '_' := by
  have digit : ∀ c, isDigit c = true → (isDigit c || c == '_') = true :=
    fun c taken => (Bool.or_eq_true _ _).mpr (.inl taken)
  exact ⟨digit, ⟨⟨fun _ taken => taken, advances_one _⟩, digit⟩, trivial⟩

theorem within_separated {isDigit : Char → Bool} (words : ∀ c, isDigit c = true → isWord c = true) :
    (separated isDigit).Within isWord := by
  have underscore : isWord '_' = true := by decide
  refine (within_separated_digits isDigit).mono fun c taken => ?_
  rcases Bool.or_eq_true _ _ ▸ taken with digit | same
  · exact words c digit
  · rw [beq_iff_eq.mp same]
    exact underscore

theorem within_wholeSuffix : wholeSuffix.Within isWord :=
  ⟨⟨⟨within_anyOf (by decide), within_anyOf (by decide), trivial⟩, within_anyOf (by decide)⟩, trivial⟩

theorem within_decimalSuffix : decimalSuffix.Within isWord :=
  ⟨⟨within_anyOf (by decide), within_anyOf (by decide), within_anyOf (by decide), trivial⟩, trivial⟩

theorem within_based {letters : List Char} {isDigit : Char → Bool}
    (all : letters.all isWord = true) (words : ∀ c, isDigit c = true → isWord c = true) :
    (based letters isDigit).Within isWord := by
  have zero : (char '0').Within isWord := by
    intro c same
    rw [beq_iff_eq.mp same]
    decide
  exact ⟨trivial, zero, within_anyOf all, within_separated words, within_wholeSuffix, trivial⟩

theorem isWord_of_isHexDigit {c : Char} (digit : Text.isHexDigit c = true) : isWord c = true := by
  have lower : 'f' ≤ 'z' := by decide
  have upper : 'F' ≤ 'Z' := by decide
  apply Unicode.isWord_of_isAlphanum
  simp only [Text.isHexDigit, Bool.or_eq_true, Bool.and_eq_true, decide_eq_true_eq] at digit
  change ((decide ('A' ≤ c ∧ c ≤ 'Z') || (decide ('a' ≤ c) && decide (c ≤ 'z'))) || c.isDigit) = true
  simp only [Bool.or_eq_true, decide_eq_true_eq, Bool.and_eq_true]
  rcases digit with (digit | ⟨first, last⟩) | ⟨first, last⟩
  · exact .inr digit
  · exact .inl (.inr ⟨first, Char.le_trans last lower⟩)
  · exact .inl (.inl ⟨first, Char.le_trans last upper⟩)

theorem isWord_of_isBinaryDigit {c : Char} (digit : isBinaryDigit c = true) : isWord c = true := by
  rcases Bool.or_eq_true _ _ ▸ digit with zero | one
  · rw [beq_iff_eq.mp zero]
    decide
  · rw [beq_iff_eq.mp one]
    decide

theorem within_hexadecimal : hexadecimal.Within isWord :=
  within_based (by decide) fun _ => isWord_of_isHexDigit

theorem within_binary : binary.Within isWord :=
  within_based (by decide) fun _ => isWord_of_isBinaryDigit

theorem within_fraction : fraction.Within isPart := by
  have point : (char '.').Within isPart := by
    intro c same
    rw [beq_iff_eq.mp same]
    decide
  exact ⟨point, (within_separated fun _ => Unicode.isWord_of_isDecimal).mono
    fun _ => isPart_of_isWord, trivial⟩

theorem within_exponent : exponent.Within isPart := by
  have digit : (one isDecimal).Within isPart :=
    fun _ digit => isPart_of_isWord (Unicode.isWord_of_isDecimal digit)
  exact ⟨within_anyOf (by decide), ⟨within_anyOf (by decide), trivial⟩, digit, digit, advances_one _⟩

theorem within_isPart : pattern.Within isPart := by
  have words : ∀ {part : Pattern}, part.Within isWord → part.Within isPart :=
    fun within => within.mono fun _ => isPart_of_isWord
  exact ⟨words within_hexadecimal, words within_binary, trivial,
    words (within_separated fun _ => Unicode.isWord_of_isDecimal), ⟨within_fraction, trivial⟩,
    ⟨within_exponent, trivial⟩, words within_decimalSuffix, trivial⟩

end Number

end KotlinHighlight
