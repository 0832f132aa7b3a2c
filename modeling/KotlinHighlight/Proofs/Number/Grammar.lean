import KotlinHighlight.Proofs.Number
import KotlinHighlight.Proofs.Pattern.Language

/-! # The grammar of numbers

What a number literal is, said without the search that finds it: digits with underscores between
them in one of three bases, and for decimal numbers a fraction, an exponent and a suffix. The pattern
for numbers takes exactly these texts between boundaries (`mem_ends_pattern_iff`).
-/

namespace KotlinHighlight.Number

open Pattern
open Unicode (isDecimal isWord)

/-- Digits with underscores between them, and digits at both ends. -/
structure Digits (isDigit : Char → Bool) (text : Text) : Prop where
  first : text.head?.any isDigit = true
  last : text.getLast?.any isDigit = true
  all : ∀ c ∈ text, isDigit c = true ∨ c = '_'

def wholeSuffixes : List Text :=
  [[], ['u'], ['U'], ['l'], ['L'], ['u', 'l'], ['u', 'L'], ['U', 'l'], ['U', 'L']]

def suffixes : List Text :=
  [[], ['f'], ['F'], ['d'], ['D'], ['l'], ['L'], ['u'], ['U'], ['u', 'l'], ['u', 'L'], ['U', 'l'],
    ['U', 'L']]

/-- A number in another base: a zero, a letter for the base, digits, and a suffix or none. -/
inductive BasedLiteral (letters : List Char) (isDigit : Char → Bool) : Text → Prop
  | intro {letter : Char} {digits suffix : Text} : letter ∈ letters → Digits isDigit digits →
      suffix ∈ wholeSuffixes → BasedLiteral letters isDigit ('0' :: letter :: (digits ++ suffix))

/-- A point with digits after it or none, or nothing at all. -/
inductive Fraction : Text → Prop
  | absent : Fraction []
  | point : Fraction ['.']
  | digits {digits : Text} : Digits isDecimal digits → Fraction ('.' :: digits)

/-- The letter of an exponent, a sign or none, and digits; or nothing at all. -/
inductive Exponent : Text → Prop
  | absent : Exponent []
  | power {letter : Char} {sign digits : Text} : letter ∈ ['e', 'E'] → sign ∈ [[], ['+'], ['-']] →
      digits ≠ [] → (∀ c ∈ digits, isDecimal c = true) → Exponent (letter :: (sign ++ digits))

/-- A decimal number: digits, and after them a fraction, an exponent and a suffix or none of them. -/
inductive DecimalLiteral : Text → Prop
  | intro {whole fraction exponent suffix : Text} : Digits isDecimal whole → Fraction fraction →
      Exponent exponent → suffix ∈ suffixes →
      DecimalLiteral (whole ++ (fraction ++ (exponent ++ suffix)))

inductive Literal : Text → Prop
  | hexadecimal {text : Text} : BasedLiteral ['x', 'X'] Text.isHexDigit text → Literal text
  | binary {text : Text} : BasedLiteral ['b', 'B'] isBinaryDigit text → Literal text
  | decimal {text : Text} : DecimalLiteral text → Literal text

section Parts

variable (isDigit : Char → Bool)

theorem takes_anyOf (choices : List Char) :
    (anyOf choices).Takes fun text => ∃ c ∈ choices, text = [c] :=
  (takes_one _).congr fun text => by simp only [List.contains_iff_mem]

theorem takes_char (c : Char) : (char c).Takes (· = [c]) :=
  (takes_one _).congr fun text => by simp only [beq_iff_eq, exists_eq_left]

theorem takes_separated : (separated isDigit).Takes (Digits isDigit) := by
  have parts := (takes_one isDigit).both
    ((takes_many_one fun c => isDigit c || c == '_').both (takes_one isDigit)).optional
  refine parts.congr fun text => ?_
  simp only [Bool.or_eq_true, beq_iff_eq]
  constructor
  · rintro ⟨_, ⟨c, isFirst, rfl⟩, _, ⟨middle, all, _, ⟨d, isLast, rfl⟩, rfl⟩ | rfl, rfl⟩
    · refine ⟨isFirst, ?_, ?_⟩
      · rw [← List.append_assoc, List.getLast?_concat]
        exact isLast
      · simp only [List.singleton_append, List.forall_mem_cons, List.forall_mem_append]
        exact ⟨.inl isFirst, all, .inl isLast, List.forall_mem_nil _⟩
    · exact ⟨isFirst, isFirst, by simpa using Or.inl isFirst⟩
  · rintro ⟨isFirst, isLast, all⟩
    cases text with
    | nil => exact absurd isFirst Bool.false_ne_true
    | cons c rest =>
      refine ⟨[c], ⟨c, isFirst, rfl⟩, rest, ?_, rfl⟩
      rcases List.eq_nil_or_concat rest with rfl | ⟨middle, d, rfl⟩
      · exact .inr rfl
      · simp only [List.concat_eq_append] at isLast all ⊢
        rw [← List.cons_append, List.getLast?_concat] at isLast
        simp only [List.forall_mem_cons, List.forall_mem_append] at all
        exact .inl ⟨middle, all.2.1, [d], ⟨d, isLast, rfl⟩, rfl⟩

theorem takes_wholeSuffix : wholeSuffix.Takes (· ∈ wholeSuffixes) := by
  have parts := (((takes_anyOf ['u', 'U']).both (takes_anyOf ['l', 'L']).optional).either
    (takes_anyOf ['l', 'L'])).optional
  refine parts.congr fun text => ?_
  simp [wholeSuffixes, or_assoc, or_comm, or_left_comm]

theorem takes_decimalSuffix : decimalSuffix.Takes (· ∈ suffixes) := by
  have parts := ((takes_anyOf ['f', 'F', 'd', 'D', 'l', 'L']).either
    ((takes_anyOf ['u', 'U']).both (takes_anyOf ['l', 'L']).optional)).optional
  refine parts.congr fun text => ?_
  simp [suffixes, or_assoc, or_comm, or_left_comm]

theorem takes_fraction : (optional fraction).Takes Fraction := by
  have parts := ((takes_char '.').both (takes_separated isDecimal).optional).optional
  refine parts.congr fun text => ?_
  constructor
  · rintro (⟨_, rfl, digits, separated | rfl, rfl⟩ | rfl)
    · exact .digits separated
    · exact .point
    · exact .absent
  · rintro (_ | _ | separated)
    · exact .inr rfl
    · exact .inl ⟨['.'], rfl, [], .inr rfl, rfl⟩
    · exact .inl ⟨['.'], rfl, _, .inl separated, rfl⟩

theorem takes_exponent : (optional exponent).Takes Exponent := by
  have digits := (takes_one isDecimal).both (takes_many_one isDecimal)
  have signed := (takes_anyOf ['+', '-']).optional.both digits
  have parts := ((takes_anyOf ['e', 'E']).both signed).optional
  refine parts.congr fun text => ?_
  constructor
  · rintro (⟨_, ⟨letter, known, rfl⟩, _, ⟨sign, signed, _, ⟨_, ⟨c, isDigit, rfl⟩, more, all, rfl⟩,
      rfl⟩, rfl⟩ | rfl)
    · have signs : sign ∈ [[], ['+'], ['-']] := by
        rcases signed with ⟨d, isSign, rfl⟩ | rfl
        · simpa using isSign
        · exact List.mem_cons_self
      have power : Exponent (letter :: (sign ++ c :: more)) :=
        .power known signs (List.cons_ne_nil c more) (List.forall_mem_cons.mpr ⟨isDigit, all⟩)
      exact power
    · exact .absent
  · rintro (_ | @⟨letter, sign, digits, known, signs, nonempty, all⟩)
    · exact .inr rfl
    · obtain ⟨c, more, rfl⟩ := List.exists_cons_of_ne_nil nonempty
      rw [List.forall_mem_cons] at all
      have signed : (∃ d ∈ ['+', '-'], sign = [d]) ∨ sign = [] := by
        simpa [or_comm, or_left_comm] using signs
      exact .inl ⟨[letter], ⟨letter, known, rfl⟩, _,
        ⟨sign, signed, _, ⟨[c], ⟨c, all.1, rfl⟩, more, all.2, rfl⟩, rfl⟩, rfl⟩

/-- Without its boundaries the pattern of a base takes the literals in that base. -/
theorem takes_basedBody (letters : List Char) :
    (sequence [char '0', anyOf letters, separated isDigit, wholeSuffix]).Takes
      (BasedLiteral letters isDigit) := by
  have parts := (takes_char '0').both ((takes_anyOf letters).both
    ((takes_separated isDigit).both takes_wholeSuffix))
  refine parts.congr fun text => ?_
  constructor
  · rintro ⟨_, rfl, _, ⟨_, ⟨letter, known, rfl⟩, _, ⟨digits, isDigits, suffix, isSuffix, rfl⟩, rfl⟩,
      rfl⟩
    have literal : BasedLiteral letters isDigit ('0' :: letter :: (digits ++ suffix)) :=
      .intro known isDigits isSuffix
    exact literal
  · rintro ⟨known, isDigits, isSuffix⟩
    exact ⟨['0'], rfl, _, ⟨[_], ⟨_, known, rfl⟩, _, ⟨_, isDigits, _, isSuffix, rfl⟩, rfl⟩, rfl⟩

/-- Without its boundaries the pattern of decimal numbers takes the decimal literals. -/
theorem takes_decimalBody :
    (sequence [separated isDecimal, optional fraction, optional exponent, decimalSuffix]).Takes
      DecimalLiteral := by
  have parts := (takes_separated isDecimal).both (takes_fraction.both
    (takes_exponent.both takes_decimalSuffix))
  refine parts.congr fun text => ?_
  constructor
  · rintro ⟨whole, isWhole, _, ⟨fraction, isFraction, _, ⟨exponent, isExponent, suffix, isSuffix,
      rfl⟩, rfl⟩, rfl⟩
    exact .intro isWhole isFraction isExponent isSuffix
  · rintro ⟨isWhole, isFraction, isExponent, isSuffix⟩
    exact ⟨_, isWhole, _, ⟨_, isFraction, _, ⟨_, isExponent, _, isSuffix, rfl⟩, rfl⟩, rfl⟩

end Parts

/-- The pattern takes the literals that stand between boundaries. -/
theorem mem_ends_pattern_iff {cursor last : Cursor} :
    last ∈ pattern.ends cursor ↔ ∃ text, Literal text ∧ cursor.Reads text last ∧
      cursor.atBoundary = true ∧ last.atBoundary = true := by
  have hexadecimal := (takes_basedBody Text.isHexDigit ['x', 'X']).mem_ends_between cursor last
  have binary := (takes_basedBody isBinaryDigit ['b', 'B']).mem_ends_between cursor last
  have decimal := takes_decimalBody.mem_ends_between cursor last
  constructor
  · intro member
    rcases mem_ends_either.mp member with first | other
    · obtain ⟨text, literal, rest⟩ := hexadecimal.mp first
      exact ⟨text, .hexadecimal literal, rest⟩
    rcases mem_ends_either.mp other with second | third
    · obtain ⟨text, literal, rest⟩ := binary.mp second
      exact ⟨text, .binary literal, rest⟩
    · obtain ⟨text, literal, rest⟩ := decimal.mp third
      exact ⟨text, .decimal literal, rest⟩
  · rintro ⟨text, literal, rest⟩
    cases literal with
    | hexadecimal literal => exact mem_ends_either.mpr (.inl (hexadecimal.mpr ⟨text, literal, rest⟩))
    | binary literal =>
      exact mem_ends_either.mpr (.inr (mem_ends_either.mpr (.inl (binary.mpr ⟨text, literal, rest⟩))))
    | decimal literal =>
      exact mem_ends_either.mpr (.inr (mem_ends_either.mpr (.inr (decimal.mpr ⟨text, literal, rest⟩))))

end KotlinHighlight.Number
