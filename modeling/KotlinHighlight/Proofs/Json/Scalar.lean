import KotlinHighlight.Json.Reader
import KotlinHighlight.Json.Writer
import KotlinHighlight.Proofs.Decimal.Notation
import KotlinHighlight.Proofs.Text.Utf16

/-! # Written scalars are read

A string is read up to its closing quote as the units that were written (`readString?_append`), and a
number, a word or a string is read as the value that was written, if the value ends there
(`readScalar?_append`).
-/

namespace KotlinHighlight.Json

theorem hexValue?_digitChar : ∀ digit < 16, hexValue? (Nat.digitChar digit) = some digit := by
  decide

theorem hexUnit?_unitDigits (unit : UInt16) :
    ∃ a b c d, unitDigits unit = [a, b, c, d] ∧ hexUnit? a b c d = some unit := by
  have bound := unit.toNat_lt
  refine ⟨_, _, _, _, rfl, ?_⟩
  rw [hexUnit?, hexValue?_digitChar _ (by omega), hexValue?_digitChar _ (by omega),
    hexValue?_digitChar _ (by omega), hexValue?_digitChar _ (by omega)]
  have code : ((unit.toNat / 0x1000 * 16 + unit.toNat / 0x100 % 0x10) * 16 +
      unit.toNat / 0x10 % 0x10) * 16 + unit.toNat % 0x10 = unit.toNat := by omega
  change some (UInt16.ofNat _) = some unit
  rw [code, UInt16.ofNat_toNat]

/-- A character that needs no escape is its own unit. -/
theorem readString?_plain {c : Char} (shown : 0x20 ≤ c.toNat) (basic : c.toNat < 0x10000)
    (quote : c ≠ '"') (backslash : c ≠ '\\') (rest : Text) :
    readString? (c :: rest) = (readString? rest).map fun read =>
      (UInt16.ofNat c.toNat :: read.1, read.2) := by
  have unescaped : ¬(c.toNat < 0x20 ∨ c = '\\') := by
    rintro (control | rfl)
    · omega
    · exact backslash rfl
  have single : Units.ofChar c = [UInt16.ofNat c.toNat] := if_pos basic
  rw [readString?]
  · rw [if_neg unescaped, single]
    cases readString? rest <;> rfl
  · rintro rfl
    exact quote rfl
  · rintro _ _ _ _ _ rfl
    exact absurd rfl backslash
  · rintro _ _ rfl
    exact absurd rfl backslash

theorem readString?_writeUnit_append (unit : UInt16) (rest : Text) :
    readString? (writeUnit unit ++ rest) = (readString? rest).map fun read =>
      (unit :: read.1, read.2) := by
  have escaped : ∀ {letter : Char}, letter ≠ 'u' → escape? letter = some unit →
      readString? ('\\' :: letter :: rest) = (readString? rest).map fun read =>
        (unit :: read.1, read.2) := by
    intro letter plain known
    rw [readString?]
    · rw [known]
      cases readString? rest <;> rfl
    · rintro _ _ _ _ _ rfl
      exact absurd rfl plain
  unfold writeUnit
  split_ifs with quote backslash feed carriage tab form back shown
  · exact escaped (by decide) (by rw [quote]; rfl)
  · exact escaped (by decide) (by rw [backslash]; rfl)
  · exact escaped (by decide) (by rw [feed]; rfl)
  · exact escaped (by decide) (by rw [carriage]; rfl)
  · exact escaped (by decide) (by rw [tab]; rfl)
  · exact escaped (by decide) (by rw [form]; rfl)
  · exact escaped (by decide) (by rw [back]; rfl)
  · have low : 0x20 ≤ unit.toNat := UInt16.le_iff_toNat_le.mp shown.1
    have high : unit.toNat ≤ 0x7e := UInt16.le_iff_toNat_le.mp shown.2
    have same : (Char.ofNat unit.toNat).toNat = unit.toNat := by
      exact Units.toNat_ofNat_of_valid (.inl (by omega))
    have other : ∀ {c : Char}, unit ≠ UInt16.ofNat c.toNat → Char.ofNat unit.toNat ≠ c := by
      rintro _ different rfl
      exact different (by rw [same, UInt16.ofNat_toNat])
    rw [List.singleton_append, readString?_plain (by omega) (by omega) (other quote)
      (other backslash), same, UInt16.ofNat_toNat]
  · obtain ⟨a, b, c, d, digits, read⟩ := hexUnit?_unitDigits unit
    rw [digits, List.cons_append, List.cons_append, List.cons_append, List.cons_append,
      List.cons_append, List.cons_append, List.nil_append, readString?, read]
    cases readString? rest <;> rfl

/-- A string is read up to its closing quote as the units that were written. -/
theorem readString?_append (units : Units) (rest : Text) :
    readString? (units.flatMap writeUnit ++ '"' :: rest) = some (units, rest) := by
  induction units with
  | nil => rw [List.flatMap_nil, List.nil_append, readString?]
  | cons unit units ih =>
    rw [List.flatMap_cons, List.append_assoc, readString?_writeUnit_append, ih, Option.map_some]

def StartsScalar (c : Char) : Prop :=
  isSpace c = false ∧ c ∉ ['[', ']', '\x7b', '\x7d']

instance (c : Char) : Decidable (StartsScalar c) :=
  inferInstanceAs (Decidable (_ ∧ _))

theorem startsScalar_of_isDigit {c : Char} (digit : c.isDigit) : StartsScalar c := by
  refine ⟨Bool.eq_false_iff.mpr fun space => ?_, fun bracket => ?_⟩
  · simp only [isSpace, Bool.or_eq_true, beq_iff_eq] at space
    rcases space with ((rfl | rfl) | rfl) | rfl <;> exact absurd digit (by decide)
  · simp only [List.mem_cons, List.not_mem_nil, or_false] at bracket
    rcases bracket with rfl | rfl | rfl | rfl <;> exact absurd digit (by decide)

/-- Whether a text is how a value that holds no other is written: it is read as the value if the
value ends there. -/
structure Spells (text : Text) (value : Json) : Prop where
  starts : ∃ c more, text = c :: more ∧ StartsScalar c
  read : ∀ rest, Decimal.EndsNumber rest → readScalar? (text ++ rest) = some (value, rest)

theorem spells_string (units : Units) : Spells (writeString units) (string units) where
  starts := ⟨'"', units.flatMap writeUnit ++ ['"'], rfl, by decide⟩
  read rest _ := by
    rw [writeString, List.append_assoc, List.cons_append, readScalar?, List.singleton_append,
      readString?_append, Option.map_some]

theorem spells_word {word : Text} {value : Json} (member : (word, value) ∈ words) :
    Spells word value := by
  simp only [words, List.mem_cons, Prod.mk.injEq, List.not_mem_nil, or_false] at member
  rcases member with ⟨rfl, rfl⟩ | ⟨rfl, rfl⟩ | ⟨rfl, rfl⟩ | ⟨rfl, rfl⟩ | ⟨rfl, rfl⟩ | ⟨rfl, rfl⟩ <;>
    exact ⟨⟨_, _, rfl, by decide⟩, fun rest _ => rfl⟩

section Number

open Decimal

theorem start_of_valid {spelling : Spelling} (valid : spelling.Valid) :
    ∃ c more, c.isDigit = true ∧ (spelling.text = c :: more ∨ spelling.text = '-' :: c :: more) := by
  obtain ⟨c, digits, whole⟩ := List.exists_cons_of_ne_nil valid.whole.nonempty
  have digit := valid.whole.all c (whole ▸ List.mem_cons_self)
  refine ⟨c, digits ++ (fractionText spelling.fraction ++ exponentText spelling.exponent), digit, ?_⟩
  rw [Spelling.text, whole]
  cases spelling.negative
  · exact .inl rfl
  · exact .inr rfl

theorem readWord?_digit {c : Char} (digit : c.isDigit) (rest : Text) :
    readWord? (c :: rest) = none ∧ readWord? ('-' :: c :: rest) = none := by
  have other : ∀ d : Char, d.isDigit = false → (d == c) = false := by
    rintro d letter
    refine beq_eq_false_iff_ne.mpr ?_
    rintro rfl
    exact Bool.false_ne_true (letter.symm.trans digit)
  constructor <;>
    simp [readWord?, words, List.find?, List.isPrefixOf, other]

theorem readScalar?_spelling {spelling : Spelling} (valid : spelling.Valid) {rest : Text}
    (ends : EndsNumber rest) :
    readScalar? (spelling.text ++ rest) = (ofSpelling? spelling).map (·, rest) := by
  have read : readNumber? (spelling.text ++ rest) = (ofSpelling? spelling).map (·, rest) := by
    rw [readNumber?, spelling?_text_append valid ends]
  obtain ⟨c, more, digit, start | start⟩ := start_of_valid valid
  · rw [← read, start, List.cons_append, readScalar?, (readWord?_digit digit _).1, Option.none_or]
    intro _ quote
    rw [(List.cons.inj quote).1] at digit
    exact absurd digit (by decide)
  · rw [← read, start, List.cons_append, List.cons_append, readScalar?,
      (readWord?_digit digit _).2, Option.none_or]
    exact nofun

theorem spells_spelling {spelling : Spelling} (valid : spelling.Valid) {value : Json}
    (known : ofSpelling? spelling = some value) : Spells spelling.text value where
  starts := by
    obtain ⟨c, more, digit, start | start⟩ := start_of_valid valid
    · exact ⟨c, more, start, startsScalar_of_isDigit digit⟩
    · exact ⟨'-', c :: more, start, by decide⟩
  read rest ends := by
    rw [readScalar?_spelling valid ends, known, Option.map_some]

theorem spells_int {value : Int} (writable : isWritable value) :
    Spells (signedDigits value) (int value) := by
  rw [signedDigits_eq]
  refine spells_spelling (valid_wholeSpelling value) ?_
  have few : (wholeSpelling value).whole.length ≤ digitLimit := of_decide_eq_true writable
  have digits : ofDigits (wholeSpelling value).whole = value.natAbs := ofDigits_digitsOf value.natAbs
  rw [ofSpelling?, if_pos ⟨rfl, rfl⟩, if_pos few, digits, wholeSpelling]
  dsimp only
  by_cases negative : value < 0
  · rw [if_pos (decide_eq_true negative)]
    congr 2
    omega
  · rw [if_neg (by simpa using negative)]
    congr 2
    omega

theorem ofSpelling?_of_isFloat {spelling : Spelling} (shown : spelling.IsFloat) :
    ofSpelling? spelling = some (float spelling.toBinary64) := by
  refine if_neg fun whole => ?_
  rcases shown with fraction | exponent
  · exact fraction (Option.isNone_iff_eq_none.mp whole.1)
  · exact exponent (Option.isNone_iff_eq_none.mp whole.2)

theorem spells_float (value : Binary64) : Spells (floatText specialNames value) (float value) := by
  cases value with
  | nan => exact spells_word (by simp [words, floatText, specialNames])
  | infinity negative =>
    cases negative <;> exact spells_word (by simp [words, floatText, specialNames])
  | finite negative rank =>
    obtain ⟨spelling, valid, shown, text, same⟩ := exists_spelling specialNames negative rank
    rw [← text, ← same]
    exact spells_spelling valid (ofSpelling?_of_isFloat shown)

end Number

end KotlinHighlight.Json
