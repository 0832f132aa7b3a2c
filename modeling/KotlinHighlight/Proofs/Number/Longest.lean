import Mathlib.Data.Bool.AllAny
import KotlinHighlight.Proofs.Number.Separators
import KotlinHighlight.Proofs.Pattern.Longest

/-! # The order of the alternatives for a number does not matter

The search for a number tries its parts in order, takes each as long as possible and gives back what
does not fit. All the same the number that it finds is the longest one at its place
(`matchEnd?_longest`): what a part can give back is nothing that another part starts with, and
numbers in different bases never start at the same place, so the ends are tried from the furthest to
the nearest (`descending_pattern`).
-/

namespace KotlinHighlight.Number

open Pattern
open Unicode (isDecimal isWord)

/-- A character of a class is none of those that the class leaves out. -/
theorem contains_eq_false {accepts : Char → Bool} {choices : List Char}
    (refused : choices.any accepts = false) (c : Char) (accepted : accepts c = true) :
    choices.contains c = false := by
  rw [Bool.eq_false_iff, Ne, List.contains_iff_mem]
  intro member
  exact List.any_eq_false.mp refused c member accepted

theorem eq_false_of_contains {accepts : Char → Bool} {choices : List Char}
    (refused : choices.any accepts = false) (c : Char) (chosen : choices.contains c = true) :
    accepts c = false :=
  Bool.eq_false_iff.mpr (List.any_eq_false.mp refused c (List.contains_iff_mem.mp chosen))

theorem opens_anyOf {choices letters : List Char} (known : choices ⊆ letters) :
    (anyOf choices).Opens letters.contains :=
  (opens_one _).mono fun _ taken =>
    List.contains_iff_mem.mpr (known (List.contains_iff_mem.mp taken))

section Digits

variable (isDigit : Char → Bool)

/-- Digits with underscores between them are tried from the longest to a single digit. -/
theorem descending_separated : (separated isDigit).Descending := by
  have rest := (descending_many_one fun c => isDigit c || c == '_').before_one isDigit
  exact (rest.optional ((advances_one isDigit).after _)).after_one isDigit

theorem advances_separated : (separated isDigit).Advances :=
  (advances_one isDigit).both _

end Digits

section Suffixes

variable {accepts : Char → Bool}

theorem descending_unsigned :
    (both (anyOf ['u', 'U']) (optional (anyOf ['l', 'L']))).Descending :=
  ((descending_one _).optional (advances_one _)).after_one _

theorem descending_wholeSuffix : wholeSuffix.Descending := by
  have unsigned := (opens_anyOf (List.Subset.refl ['u', 'U'])).both (optional (anyOf ['l', 'L']))
  have apart := unsigned.apart (opens_anyOf (List.Subset.refl ['l', 'L']))
    (contains_eq_false (by decide))
  exact (descending_unsigned.either (descending_one _) apart).optional
    (((advances_one _).both _).either (advances_one _))

theorem shuns_wholeSuffix (refused : ['u', 'U', 'l', 'L'].any accepts = false) :
    wholeSuffix.Shuns accepts := by
  have unsigned := (opens_anyOf (show ['u', 'U'] ⊆ ['u', 'U', 'l', 'L'] by simp)).both
    (optional (anyOf ['l', 'L']))
  have long := opens_anyOf (show ['l', 'L'] ⊆ ['u', 'U', 'l', 'L'] by simp)
  exact (unsigned.either long).shuns_optional (contains_eq_false refused)

theorem descending_decimalSuffix : decimalSuffix.Descending := by
  have unsigned := (opens_anyOf (List.Subset.refl ['u', 'U'])).both (optional (anyOf ['l', 'L']))
  have apart := (opens_anyOf (List.Subset.refl ['f', 'F', 'd', 'D', 'l', 'L'])).apart unsigned
    (contains_eq_false (by decide))
  exact ((descending_one _).either descending_unsigned apart).optional
    ((advances_one _).either ((advances_one _).both _))

theorem shuns_decimalSuffix
    (refused : ['f', 'F', 'd', 'D', 'l', 'L', 'u', 'U'].any accepts = false) :
    decimalSuffix.Shuns accepts := by
  have single := opens_anyOf (show ['f', 'F', 'd', 'D', 'l', 'L'] ⊆
    ['f', 'F', 'd', 'D', 'l', 'L', 'u', 'U'] by simp)
  have unsigned := (opens_anyOf (show ['u', 'U'] ⊆ ['f', 'F', 'd', 'D', 'l', 'L', 'u', 'U'] by simp)).both
    (optional (anyOf ['l', 'L']))
  exact (single.either unsigned).shuns_optional (contains_eq_false refused)

end Suffixes

section Decimal

variable {accepts : Char → Bool}

/-- A fraction is tried with all its digits, with fewer, with none, and then it is left out. -/
theorem descending_fraction : (optional fraction).Descending := by
  have digits := (descending_separated isDecimal).optional (advances_separated isDecimal)
  exact (digits.after_one _).optional ((advances_one _).both _)

theorem within_fraction_digits :
    (optional fraction).Within fun c => isDecimal c || c == '_' || c == '.' := by
  have digits := (within_separated_digits isDecimal).mono fun c taken =>
    (Bool.or_eq_true _ _).mpr (.inl taken : _ ∨ (c == '.') = true)
  exact ⟨⟨fun c point => (Bool.or_eq_true _ _).mpr (.inr point), digits, trivial⟩, trivial⟩

theorem shuns_fraction (refused : accepts '.' = false) : (optional fraction).Shuns accepts := by
  have opens : fraction.Opens ['.'].contains :=
    (opens_char (by decide)).both (optional (separated isDecimal))
  exact opens.shuns_optional (contains_eq_false (by simpa using refused))

/-- The sign of an exponent is none of its digits, so leaving it out leads nowhere. -/
theorem descending_exponent : (optional exponent).Descending := by
  have digits := (descending_many_one isDecimal).after_one isDecimal
  have opens := (opens_one isDecimal).both (many (one isDecimal))
  have sign : (optional (anyOf ['+', '-'])).Within ['+', '-'].contains :=
    ⟨fun _ taken => taken, trivial⟩
  have signed := ((descending_one _).optional (advances_one _)).both sign digits
    (opens.shuns (eq_false_of_contains (by decide)))
  exact (signed.after_one _).optional ((advances_one _).both _)

theorem within_exponent_parts :
    (optional exponent).Within fun c => isDecimal c || ['e', 'E', '+', '-'].contains c := by
  have digit : (one isDecimal).Within fun c => isDecimal c || ['e', 'E', '+', '-'].contains c :=
    fun c taken => (Bool.or_eq_true _ _).mpr (.inl taken)
  exact ⟨⟨within_anyOf (by decide), ⟨within_anyOf (by decide), trivial⟩, digit, digit,
    advances_one _⟩, trivial⟩

theorem shuns_exponent (refused : ['e', 'E'].any accepts = false) :
    (optional exponent).Shuns accepts := by
  have opens : exponent.Opens ['e', 'E'].contains := (opens_anyOf (List.Subset.refl _)).both _
  exact opens.shuns_optional (contains_eq_false refused)

/-- What a part of a decimal number gives back is never taken by the parts after it. -/
theorem descending_decimalBody :
    (sequence [separated isDecimal, optional fraction, optional exponent,
      decimalSuffix]).Descending := by
  have ending := descending_exponent.both within_exponent_parts descending_decimalSuffix
    (shuns_decimalSuffix (by decide))
  have shunsEnding : (both (optional exponent) decimalSuffix).Shuns
      fun c => isDecimal c || c == '_' || c == '.' :=
    (shuns_exponent (by decide)).both (shuns_decimalSuffix (by decide))
  have rest := descending_fraction.both within_fraction_digits ending shunsEnding
  have shunsRest : (both (optional fraction) (both (optional exponent) decimalSuffix)).Shuns
      fun c => isDecimal c || c == '_' :=
    (shuns_fraction (by decide)).both
      ((shuns_exponent (by decide)).both (shuns_decimalSuffix (by decide)))
  exact (descending_separated isDecimal).both (within_separated_digits isDecimal) rest shunsRest

end Decimal

/-- The digits of a base are none of the letters of a suffix. -/
theorem descending_basedBody (letters : List Char) (isDigit : Char → Bool)
    (refused : (['u', 'U', 'l', 'L'].any fun c => isDigit c || c == '_') = false) :
    (sequence [char '0', anyOf letters, separated isDigit, wholeSuffix]).Descending := by
  have digits := (descending_separated isDigit).both (within_separated_digits isDigit)
    descending_wholeSuffix (shuns_wholeSuffix refused)
  exact (digits.after_one _).after_one _

section Bases

/-- A decimal number has no letter of another base. -/
theorem DecimalLiteral.not_mem {text : Text} (literal : DecimalLiteral text) {letter : Char}
    (base : letter ∈ ['x', 'X', 'b', 'B']) : letter ∉ text := by
  have inDigits : ∀ letter ∈ ['x', 'X', 'b', 'B'], isDecimal letter = false ∧ letter ≠ '_' :=
    List.all_iff_forall_prop.mp (by decide)
  have inExponent : ∀ letter ∈ ['x', 'X', 'b', 'B'], letter ∉ ['e', 'E'] ∧
      ∀ sign ∈ [[], ['+'], ['-']], letter ∉ sign :=
    List.all_iff_forall_prop.mp (by decide)
  have inSuffix : ∀ letter ∈ ['x', 'X', 'b', 'B'], ∀ suffix ∈ suffixes, letter ∉ suffix :=
    List.all_iff_forall_prop.mp (by decide)
  have digits : ∀ {digits : Text}, Digits isDecimal digits → letter ∉ digits := by
    intro digits isDigits member
    obtain ⟨noDigit, noUnderscore⟩ := inDigits letter base
    rcases isDigits.all letter member with digit | same
    · exact absurd (noDigit.symm.trans digit) Bool.false_ne_true
    · exact noUnderscore same
  obtain @⟨whole, fraction, power, suffix, isWhole, isFraction, isPower, known⟩ := literal
  simp only [List.mem_append, not_or]
  refine ⟨digits isWhole, ?_, ?_, inSuffix letter base suffix known⟩
  · cases isFraction with
    | absent => exact List.not_mem_nil
    | point =>
      rintro point
      obtain rfl := List.mem_singleton.mp point
      exact absurd base (by decide)
    | digits more =>
      rw [List.mem_cons, not_or]
      refine ⟨?_, digits more⟩
      rintro rfl
      exact absurd base (by decide)
  · cases isPower with
    | absent => exact List.not_mem_nil
    | @power sign _ digits isLetter isSign some all =>
      obtain ⟨noLetter, noSign⟩ := inExponent letter base
      simp only [List.mem_cons, List.mem_append, not_or]
      refine ⟨fun same => noLetter (same ▸ isLetter), noSign _ isSign, fun member => ?_⟩
      exact absurd ((inDigits letter base).1.symm.trans (all letter member)) Bool.false_ne_true

variable {letters : List Char} {isDigit : Char → Bool} {cursor last : Cursor}

/-- A number in another base has the letter of the base. -/
theorem BasedLiteral.exists_letter {text : Text} (literal : BasedLiteral letters isDigit text) :
    ∃ letter ∈ letters, letter ∈ text := by
  obtain ⟨known, -, -⟩ := literal
  exact ⟨_, known, List.mem_cons_of_mem _ List.mem_cons_self⟩

/-- Where a number in another base stands no decimal number does. -/
theorem ends_decimal_of_based (all : letters.all isWord = true)
    (words : ∀ c, isDigit c = true → isWord c = true) (base : letters ⊆ ['x', 'X', 'b', 'B'])
    (member : last ∈ (based letters isDigit).ends cursor) : decimal.ends cursor = [] := by
  rw [List.eq_nil_iff_forall_not_mem]
  intro other found
  obtain ⟨text, literal, reads, -, stops⟩ :=
    ((takes_basedBody isDigit letters).mem_ends_between cursor last).mp member
  obtain ⟨text', literal', reads', -, stops'⟩ :=
    (takes_decimalBody.mem_ends_between cursor other).mp found
  obtain ⟨letter, known, member⟩ := literal.exists_letter
  have nonempty : text ≠ [] := List.ne_nil_of_mem member
  obtain ⟨digit, rest, rfl, -⟩ := (Literal.decimal literal').exists_cons
  have run := reads.run_of_atBoundary nonempty stops
  rw [reads'.run_of_atBoundary (List.cons_ne_nil _ _) stops',
    List.takeWhile_eq_self_iff.mpr (literal.isWord all words)] at run
  have taken : letter ∈ (digit :: rest).takeWhile isWord := by rwa [run]
  exact literal'.not_mem (base known) ((List.takeWhile_prefix isWord).mem taken)

/-- Numbers in two bases with letters of their own stand at different places. -/
theorem ends_based_of_based {letters' : List Char} {isDigit' : Char → Bool}
    (distinct : letters.any letters'.contains = false)
    (member : last ∈ (based letters isDigit).ends cursor) :
    (based letters' isDigit').ends cursor = [] := by
  rw [List.eq_nil_iff_forall_not_mem]
  intro other found
  obtain ⟨text, ⟨known, -, -⟩, reads, -⟩ :=
    ((takes_basedBody isDigit letters).mem_ends_between cursor last).mp member
  obtain ⟨text', ⟨known', -, -⟩, reads', -⟩ :=
    ((takes_basedBody isDigit' letters').mem_ends_between cursor other).mp found
  have same := reads.ahead.symm.trans reads'.ahead
  obtain ⟨-, same⟩ := List.cons.inj same
  obtain ⟨rfl, -⟩ := List.cons.inj same
  exact List.any_eq_false.mp distinct _ known (List.contains_iff_mem.mpr known')

end Bases

/-- The ends of a number are tried from the furthest to the nearest. -/
theorem descending_pattern : pattern.Descending := by
  have hexadecimal := (descending_basedBody ['x', 'X'] Text.isHexDigit (by decide)).between
  have binary := (descending_basedBody ['b', 'B'] isBinaryDigit (by decide)).between
  have decimal := descending_decimalBody.between
  refine hexadecimal.either (binary.either decimal fun cursor last member => ?_)
    fun cursor last member => ?_
  · exact ends_decimal_of_based (by decide) (fun _ => isWord_of_isBinaryDigit) (by simp) member
  · exact List.append_eq_nil_iff.mpr ⟨ends_based_of_based (by decide) member,
      ends_decimal_of_based (by decide) (fun _ => isWord_of_isHexDigit) (by simp) member⟩

section Place

/-- A number that stands at a position of a text: a literal comes next, with a word boundary before it
and another one after it. -/
structure StandsAt (text : Text) (position : Nat) (literal : Text) : Prop where
  isLiteral : Literal literal
  ahead : literal <+: text.drop position
  starts : (text.cursorAt position).atBoundary = true
  stops : (text.cursorAt (position + literal.length)).atBoundary = true

/-- The places where the numbers at a position stop. -/
def stopsFrom (text : Text) (position : Nat) : Set Nat :=
  {stop | ∃ literal, StandsAt text position literal ∧ stop = position + literal.length}

variable {text : Text} {position : Nat}

theorem Literal.le_length {literal : Text} (isLiteral : Literal literal)
    (ahead : literal <+: text.drop position) : position ≤ text.length := by
  obtain ⟨digit, rest, rfl, -⟩ := isLiteral.exists_cons
  have room := ahead.length_le
  rw [List.length_cons, List.length_drop] at room
  omega

/-- From a position the pattern leads to the ends of the numbers that stand there. -/
theorem mem_ends_cursorAt_iff {last : Cursor} :
    last ∈ pattern.ends (text.cursorAt position) ↔ ∃ literal, StandsAt text position literal ∧
      last = text.cursorAt (position + literal.length) := by
  rw [mem_ends_pattern_iff]
  constructor
  · rintro ⟨literal, isLiteral, reads, starts, stops⟩
    have ahead : literal <+: text.drop position := ⟨last.ahead, reads.ahead.symm⟩
    have within := isLiteral.le_length ahead
    obtain rfl := reads.unique (Cursor.reads_cursorAt within reads.ahead)
    exact ⟨literal, ⟨isLiteral, ahead, starts, stops⟩, rfl⟩
  · rintro ⟨literal, ⟨isLiteral, ahead, starts, stops⟩, rfl⟩
    have within := isLiteral.le_length ahead
    obtain ⟨rest, split⟩ := ahead
    exact ⟨literal, isLiteral, Cursor.reads_cursorAt within split.symm, starts, stops⟩

theorem stopsFrom_eq :
    stopsFrom text position =
      {place | ∃ last ∈ pattern.ends (text.cursorAt position), last.position = place} := by
  ext stop
  constructor
  · rintro ⟨literal, stands, rfl⟩
    exact ⟨_, mem_ends_cursorAt_iff.mpr ⟨literal, stands, rfl⟩, rfl⟩
  · rintro ⟨last, member, rfl⟩
    obtain ⟨literal, stands, rfl⟩ := mem_ends_cursorAt_iff.mp member
    exact ⟨literal, stands, rfl⟩

theorem matchEnd?_eq_some_iff {stop : Nat} :
    pattern.matchEnd? (text.cursorAt position) = some stop ↔
      IsGreatest (stopsFrom text position) stop := by
  rw [matchEnd?_eq_some_iff_isGreatest descending_pattern, stopsFrom_eq]

end Place

/-- The search finds the longest number that stands at a position, and it finds none just if no number
stands there. So each number that is found in a text is the longest one at its start. -/
theorem matchEnd?_longest (text : Text) :
    (∀ position stop, pattern.matchEnd? (text.cursorAt position) = some stop ↔
      IsGreatest (stopsFrom text position) stop) ∧
    (∀ position, pattern.matchEnd? (text.cursorAt position) = none ↔
      ∀ literal, ¬StandsAt text position literal) ∧
    ∀ stretch ∈ pattern.stretches text,
      IsGreatest (stopsFrom text stretch.start) stretch.stop := by
  refine ⟨fun position stop => matchEnd?_eq_some_iff, fun position => ?_, fun stretch member => ?_⟩
  · rw [matchEnd?_eq_none_iff]
    constructor
    · intro noEnd literal stands
      exact noEnd _ (mem_ends_cursorAt_iff.mpr ⟨literal, stands, rfl⟩)
    · intro noNumber last member
      obtain ⟨literal, stands, -⟩ := mem_ends_cursorAt_iff.mp member
      exact noNumber literal stands
  · exact matchEnd?_eq_some_iff.mp (matchEnd?_of_mem_stretches member).2.2

/-- Parts that do not fit are given back: of `1.5x` remains `1.`, and of an open exponent nothing. -/
example : (["1.5x", "1.e5x", "1e+", "0x", "1__"].map fun word =>
    pattern.matchEnd? (Text.cursorAt word.toList 0)) = [some 2, some 2, none, none, none] := by
  decide

end KotlinHighlight.Number
