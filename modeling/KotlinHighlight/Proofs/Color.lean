import Mathlib.Data.List.DropRight
import Mathlib.Data.List.TakeWhile
import KotlinHighlight.Color

/-! # Canonical colors

What is left of a text without the blanks at its ends is determined (`strip_eq_iff`). So the settings that
give a color are those that name one by three or six hexadecimal digits (`normalize?_eq_some_iff`), and
what they give is a canonical form: two of them give the same color just if they name the same one
(`normalize?_canonical`).
-/

namespace KotlinHighlight

namespace Text

theorem capital_or_toLower_eq (c : Char) : (∃ n < 26, c = Char.ofNat (65 + n)) ∨ c.toLower = c := by
  by_cases capital : c.val ≥ 'A'.val ∧ c.val ≤ 'Z'.val
  · have low : 65 ≤ c.toNat := capital.1
    have high : c.toNat ≤ 90 := capital.2
    refine .inl ⟨c.toNat - 65, by omega, ?_⟩
    rw [Nat.add_sub_of_le low, Char.ofNat_toNat]
  · exact .inr (dif_neg capital)

theorem small_or_toUpper_eq (c : Char) :
    (∃ n < 26, c = Char.ofNat (97 + n)) ∨ ¬('a' ≤ c ∧ c ≤ 'z') ∧ c.toUpper = c := by
  by_cases small : 'a' ≤ c ∧ c ≤ 'z'
  · have low : 97 ≤ c.toNat := small.1
    have high : c.toNat ≤ 122 := small.2
    refine .inl ⟨c.toNat - 97, by omega, ?_⟩
    rw [Nat.add_sub_of_le low, Char.ofNat_toNat]
  · exact .inr ⟨small, dif_neg small⟩

section Cases

variable {α : Type} {f : Char → α}

/-- What does not tell capital letters from small ones is the same for a character in lower case. -/
theorem apply_toLower
    (letters : ∀ n < 26, f (Char.ofNat (65 + n)).toLower = f (Char.ofNat (65 + n))) (c : Char) :
    f c.toLower = f c := by
  rcases capital_or_toLower_eq c with ⟨n, within, rfl⟩ | same
  · exact letters n within
  · rw [same]

theorem apply_toUpper
    (letters : ∀ n < 26, f (Char.ofNat (97 + n)).toUpper = f (Char.ofNat (97 + n))) (c : Char) :
    f c.toUpper = f c := by
  rcases small_or_toUpper_eq c with ⟨n, within, rfl⟩ | ⟨-, same⟩
  · exact letters n within
  · rw [same]

end Cases

theorem isHexDigit_toLower (c : Char) : isHexDigit c.toLower = isHexDigit c :=
  apply_toLower (by decide) c

theorem isHexDigit_toUpper (c : Char) : isHexDigit c.toUpper = isHexDigit c :=
  apply_toUpper (by decide) c

theorem isHexDigit_iff {c : Char} :
    isHexDigit c = true ↔ c.isDigit = true ∨ ('a' ≤ c ∧ c ≤ 'f') ∨ 'A' ≤ c ∧ c ≤ 'F' := by
  simp only [isHexDigit, Bool.or_eq_true, Bool.and_eq_true, decide_eq_true_eq, or_assoc]

/-- A hexadecimal digit in upper case is a digit or a letter from A to F. -/
theorem toUpper_of_isHexDigit {c : Char} (digit : isHexDigit c = true) :
    c.toUpper.isDigit = true ∨ 'A' ≤ c.toUpper ∧ c.toUpper ≤ 'F' := by
  rcases small_or_toUpper_eq c with ⟨n, within, rfl⟩ | ⟨unlike, same⟩
  · have capital : ∀ n < 26, isHexDigit (Char.ofNat (97 + n)) = true →
        'A' ≤ (Char.ofNat (97 + n)).toUpper ∧ (Char.ofNat (97 + n)).toUpper ≤ 'F' := by
      decide
    exact .inr (capital n within digit)
  · rw [same]
    rcases isHexDigit_iff.mp digit with decimal | ⟨first, last⟩ | capital
    · exact .inl decimal
    · exact absurd ⟨first, Char.le_trans last (by decide)⟩ unlike
    · exact .inr capital

theorem isBlank_of_isHexDigit {c : Char} (digit : isHexDigit c = true) :
    Unicode.isBlank c = false := by
  have visible : 0x30 ≤ c.toNat ∧ c.toNat ≤ 0x66 := by
    rw [isHexDigit_iff] at digit
    rcases digit with decimal | ⟨first, last⟩ | ⟨first, last⟩
    · obtain ⟨first, last⟩ := Char.isDigit_iff_toNat.mp decimal
      exact ⟨first, Nat.le_trans last (by decide)⟩
    · exact ⟨Nat.le_trans (by decide) (show 97 ≤ c.toNat from first), last⟩
    · exact ⟨Nat.le_trans (by decide) (show 65 ≤ c.toNat from first),
        Nat.le_trans (show c.toNat ≤ 70 from last) (by decide)⟩
  rw [← Bool.not_eq_true]
  simp only [Unicode.isBlank, Bool.or_eq_true, Bool.and_eq_true, decide_eq_true_eq, beq_iff_eq]
  omega

/-- Two texts are the same in upper case just if they are in lower case. -/
theorem map_toUpper_eq_iff {first second : Text} :
    first.map Char.toUpper = second.map Char.toUpper ↔
      first.map Char.toLower = second.map Char.toLower := by
  have lower : ∀ text : Text, (text.map Char.toUpper).map Char.toLower = text.map Char.toLower := by
    intro text
    rw [List.map_map]
    exact List.map_congr_left fun c _ => apply_toUpper (f := Char.toLower) (by decide) c
  have upper : ∀ text : Text, (text.map Char.toLower).map Char.toUpper = text.map Char.toUpper := by
    intro text
    rw [List.map_map]
    exact List.map_congr_left fun c _ => apply_toLower (f := Char.toUpper) (by decide) c
  constructor
  · intro same
    rw [← lower, same, lower]
  · intro same
    rw [← upper, same, upper]

end Text

namespace Unicode

/-- Whether a text is what is left of another one without the blanks at its ends. -/
structure IsCore (core text : Text) : Prop where
  around : ∃ before after, text = before ++ core ++ after ∧
    (∀ c ∈ before, isBlank c = true) ∧ ∀ c ∈ after, isBlank c = true
  starts : core.head?.any isBlank = false
  stops : core.getLast?.any isBlank = false

theorem head?_dropWhile_isBlank (text : Text) : (text.dropWhile isBlank).head?.any isBlank = false := by
  have stopped := List.head?_dropWhile_not isBlank text
  cases head : (text.dropWhile isBlank).head? with
  | none => rfl
  | some c =>
    rw [head] at stopped
    exact stopped

theorem dropWhile_isBlank_of_head? {text : Text} (starts : text.head?.any isBlank = false) :
    text.dropWhile isBlank = text := by
  cases text with
  | nil => rfl
  | cons c rest => exact List.dropWhile_cons_of_neg (Bool.eq_false_iff.mp starts)

theorem isCore_strip (text : Text) : IsCore (strip text) text where
  around := by
    refine ⟨text.takeWhile isBlank, (text.dropWhile isBlank).rtakeWhile isBlank, ?_,
      fun c => List.mem_takeWhile_imp, fun c => List.mem_rtakeWhile_imp⟩
    have stripped : strip text = (text.dropWhile isBlank).rdropWhile isBlank := rfl
    rw [stripped, List.append_assoc, List.rdropWhile_append_rtakeWhile, List.takeWhile_append_dropWhile]
  starts := by
    have first := head?_dropWhile_isBlank text
    obtain ⟨after, split⟩ := List.rdropWhile_prefix isBlank (text.dropWhile isBlank)
    rw [← split, List.head?_append] at first
    change ((text.dropWhile isBlank).rdropWhile isBlank).head?.any isBlank = false
    cases head : ((text.dropWhile isBlank).rdropWhile isBlank).head? with
    | none => rfl
    | some c =>
      rw [head, Option.some_or] at first
      exact first
  stops := by
    rw [strip, List.getLast?_reverse]
    exact head?_dropWhile_isBlank _

/-- What is left of a text without the blanks at its ends is determined. -/
theorem strip_eq_iff {core text : Text} : strip text = core ↔ IsCore core text := by
  constructor
  · rintro rfl
    exact isCore_strip text
  · rintro ⟨⟨before, after, rfl, blanksBefore, blanksAfter⟩, starts, stops⟩
    rw [List.append_assoc, strip, List.dropWhile_append_of_pos blanksBefore]
    cases core with
    | nil =>
      rw [List.nil_append, List.dropWhile_eq_nil_iff.mpr blanksAfter]
      rfl
    | cons c rest =>
      have kept : (c :: rest ++ after).dropWhile isBlank = c :: rest ++ after :=
        dropWhile_isBlank_of_head? starts
      have blanks : ∀ c ∈ after.reverse, isBlank c = true := fun c member =>
        blanksAfter c (List.mem_reverse.mp member)
      rw [kept, List.reverse_append, List.dropWhile_append_of_pos blanks, dropWhile_isBlank_of_head?,
        List.reverse_reverse]
      rwa [List.head?_reverse]

theorem strip_append {before after : Text} (blanksBefore : ∀ c ∈ before, isBlank c = true)
    (blanksAfter : ∀ c ∈ after, isBlank c = true) (text : Text) :
    strip (before ++ text ++ after) = strip text := by
  obtain ⟨⟨first, last, split, blanksFirst, blanksLast⟩, starts, stops⟩ := isCore_strip text
  refine strip_eq_iff.mpr ⟨⟨before ++ first, last ++ after, ?_, ?_, ?_⟩, starts, stops⟩
  · conv => lhs; rw [split]
    simp only [List.append_assoc]
  · exact List.forall_mem_append.mpr ⟨blanksBefore, blanksFirst⟩
  · exact List.forall_mem_append.mpr ⟨blanksLast, blanksAfter⟩

theorem strip_map_toLower (text : Text) :
    strip (text.map Char.toLower) = (strip text).map Char.toLower := by
  have same : isBlank ∘ Char.toLower = isBlank := funext (Text.apply_toLower (by decide))
  rw [strip, strip, List.dropWhile_map, same, ← List.map_reverse, List.dropWhile_map, same,
    List.map_reverse]

end Unicode

namespace Color

/-- The six digits that three or six digits stand for. -/
def longForm (digits : Text) : Text :=
  if digits.length = 3 then doubled digits else digits

/-- Whether a setting names a color by its digits: it is a number sign with three or six hexadecimal
digits, once the blanks at its ends are left out. -/
structure Names (setting digits : Text) : Prop where
  core : Unicode.IsCore ('#' :: digits) setting
  hexadecimal : ∀ c ∈ digits, Text.isHexDigit c = true
  count : digits.length = 3 ∨ digits.length = 6

theorem mem_doubled_iff {c : Char} {digits : Text} : c ∈ doubled digits ↔ c ∈ digits := by
  simp [doubled]

theorem length_doubled (digits : Text) : (doubled digits).length = 2 * digits.length := by
  induction digits with
  | nil => rfl
  | cons c digits ih =>
    have more : (doubled (c :: digits)).length = (doubled digits).length + 2 := rfl
    rw [more, ih]
    rfl

theorem doubled_map (f : Char → Char) (digits : Text) :
    doubled (digits.map f) = (doubled digits).map f := by
  rw [doubled, doubled, List.flatMap_map, List.map_flatMap]
  rfl

theorem mem_longForm_iff {c : Char} {digits : Text} : c ∈ longForm digits ↔ c ∈ digits := by
  rw [longForm]
  split
  · exact mem_doubled_iff
  · exact Iff.rfl

theorem longForm_of_length {digits : Text} (long : digits.length = 6) : longForm digits = digits :=
  if_neg fun short => absurd (short.symm.trans long) (by decide)

theorem length_longForm {digits : Text} (count : digits.length = 3 ∨ digits.length = 6) :
    (longForm digits).length = 6 := by
  rw [longForm]
  split
  · rename_i short
    rw [length_doubled, short]
  · rename_i long
    exact count.resolve_left long

/-- A setting gives a color just if it names one, and this is the color in its long form and in upper
case. -/
theorem normalize?_eq_some_iff {setting color : Text} :
    normalize? setting = some color ↔
      ∃ digits, Names setting digits ∧ color = '#' :: (longForm digits).map Char.toUpper := by
  constructor
  · intro normal
    rw [normalize?] at normal
    split at normal
    · rename_i digits stripped
      have core := Unicode.strip_eq_iff.mp stripped
      split_ifs at normal with hexadecimal short long
      · refine ⟨digits, ⟨core, List.all_eq_true.mp hexadecimal, .inl short⟩, ?_⟩
        rw [longForm, if_pos short]
        exact (Option.some.inj normal).symm
      · refine ⟨digits, ⟨core, List.all_eq_true.mp hexadecimal, .inr long⟩, ?_⟩
        rw [longForm, if_neg short]
        exact (Option.some.inj normal).symm
    · exact absurd normal nofun
  · rintro ⟨digits, ⟨core, hexadecimal, count⟩, rfl⟩
    simp only [normalize?, Unicode.strip_eq_iff.mpr core, longForm]
    rw [if_pos (List.all_eq_true.mpr hexadecimal)]
    rcases count with short | long
    · rw [if_pos short, if_pos short]
    · have notShort : digits.length ≠ 3 := by omega
      rw [if_neg notShort, if_neg notShort, if_pos long]

theorem names_self {digits : Text} (hexadecimal : ∀ c ∈ digits, Text.isHexDigit c = true)
    (count : digits.length = 3 ∨ digits.length = 6) : Names ('#' :: digits) digits where
  core := by
    refine ⟨⟨[], [], (List.append_nil _).symm, List.forall_mem_nil _, List.forall_mem_nil _⟩, rfl, ?_⟩
    rw [List.getLast?_cons, Option.any_some]
    cases last : digits.getLast? with
    | none => rfl
    | some c => exact Text.isBlank_of_isHexDigit (hexadecimal c (List.mem_of_getLast? last))
  hexadecimal := hexadecimal
  count := count

theorem normalize?_map_toLower (setting : Text) :
    normalize? (setting.map Char.toLower) = normalize? setting := by
  have digit : Text.isHexDigit ∘ Char.toLower = Text.isHexDigit := funext Text.isHexDigit_toLower
  have upper : Char.toUpper ∘ Char.toLower = Char.toUpper :=
    funext (Text.apply_toLower (f := Char.toUpper) (by decide))
  have sign : ∀ c : Char, (c.toLower == '#') = (c == '#') :=
    Text.apply_toLower (f := (· == '#')) (by decide)
  rw [normalize?, Unicode.strip_map_toLower, normalize?]
  cases Unicode.strip setting with
  | nil => rfl
  | cons c digits =>
    by_cases numbered : c = '#'
    · obtain rfl := numbered
      have first : '#'.toLower = '#' := rfl
      simp only [List.map_cons, first, List.all_map, digit, List.length_map, doubled_map,
        List.map_map, upper]
    · have other : c.toLower ≠ '#' := by
        intro same
        rw [← beq_iff_eq, sign, beq_iff_eq] at same
        exact numbered same
      rw [List.map_cons]
      split
      · rename_i same
        exact absurd (List.cons.inj same).1 other
      · split
        · rename_i same
          exact absurd (List.cons.inj same).1 numbered
        · rfl

/-- Blanks around a setting and the case of its letters make no difference. -/
theorem normalize?_congr {setting other before after : Text}
    (blanksBefore : ∀ c ∈ before, Unicode.isBlank c = true)
    (blanksAfter : ∀ c ∈ after, Unicode.isBlank c = true)
    (alike : other.map Char.toLower = setting.map Char.toLower) :
    normalize? (before ++ other ++ after) = normalize? setting := by
  rw [← normalize?_map_toLower setting, ← alike, normalize?_map_toLower, normalize?,
    Unicode.strip_append blanksBefore blanksAfter, normalize?]

/-- The color that a setting gives names itself, and is its own canonical form. -/
theorem normalize?_idem {setting color : Text} (normal : normalize? setting = some color) :
    normalize? color = some color := by
  obtain ⟨digits, names, rfl⟩ := normalize?_eq_some_iff.mp normal
  have long : ((longForm digits).map Char.toUpper).length = 6 := by
    rw [List.length_map, length_longForm names.count]
  have hexadecimal : ∀ c ∈ (longForm digits).map Char.toUpper, Text.isHexDigit c = true := by
    intro c member
    obtain ⟨digit, inside, rfl⟩ := List.mem_map.mp member
    rw [Text.isHexDigit_toUpper]
    exact names.hexadecimal digit (mem_longForm_iff.mp inside)
  have upper : Char.toUpper ∘ Char.toUpper = Char.toUpper :=
    funext (Text.apply_toUpper (f := Char.toUpper) (by decide))
  refine normalize?_eq_some_iff.mpr ⟨_, names_self hexadecimal (.inr long), ?_⟩
  rw [longForm_of_length long, List.map_map, upper]

/-- A setting gives a color just if it is, once the blanks at its ends are left out, a number sign with
three or six hexadecimal digits. What it gives is a number sign with six digits or letters from A to F,
and gives itself. The case of letters and blanks around the setting make no difference, whether it gives
a color or not. Two settings that name colors give the same one just if their digits are the same in
long form but for the case of letters. -/
theorem normalize?_canonical :
    (∀ setting : Text, (normalize? setting).isSome = true ↔ ∃ digits, Names setting digits) ∧
    (∀ setting color : Text, normalize? setting = some color →
      (∃ digits, color = '#' :: digits ∧ digits.length = 6 ∧
        ∀ c ∈ digits, c.isDigit = true ∨ 'A' ≤ c ∧ c ≤ 'F') ∧
      normalize? color = some color) ∧
    (∀ setting other before after : Text, (∀ c ∈ before, Unicode.isBlank c = true) →
      (∀ c ∈ after, Unicode.isBlank c = true) →
      other.map Char.toLower = setting.map Char.toLower →
      normalize? (before ++ other ++ after) = normalize? setting) ∧
    ∀ setting other digits more : Text, Names setting digits → Names other more →
      (normalize? setting = normalize? other ↔
        (longForm digits).map Char.toLower = (longForm more).map Char.toLower) := by
  refine ⟨fun setting => ?_, fun setting color normal => ?_,
    fun setting other before after => normalize?_congr, ?_⟩
  · rw [Option.isSome_iff_exists]
    constructor
    · rintro ⟨color, normal⟩
      obtain ⟨digits, names, -⟩ := normalize?_eq_some_iff.mp normal
      exact ⟨digits, names⟩
    · rintro ⟨digits, names⟩
      exact ⟨_, normalize?_eq_some_iff.mpr ⟨digits, names, rfl⟩⟩
  · refine ⟨?_, normalize?_idem normal⟩
    obtain ⟨digits, names, rfl⟩ := normalize?_eq_some_iff.mp normal
    refine ⟨_, rfl, by rw [List.length_map, length_longForm names.count], fun c member => ?_⟩
    obtain ⟨digit, inside, rfl⟩ := List.mem_map.mp member
    exact Text.toUpper_of_isHexDigit (names.hexadecimal digit (mem_longForm_iff.mp inside))
  · intro setting other digits more one another
    rw [normalize?_eq_some_iff.mpr ⟨digits, one, rfl⟩, normalize?_eq_some_iff.mpr ⟨more, another, rfl⟩,
      Option.some_inj, List.cons_inj_right, Text.map_toUpper_eq_iff]

/-- A short form in mixed case, between blanks. -/
example : normalize? ['\u2003', '#', 'a', '0', 'F', '\n'] =
    some ['#', 'A', 'A', '0', '0', 'F', 'F'] := by
  decide +kernel

end Color

end KotlinHighlight
