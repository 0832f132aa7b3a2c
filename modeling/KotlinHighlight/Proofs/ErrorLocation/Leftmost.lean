import Mathlib.Order.Bounds.Defs
import KotlinHighlight.ErrorLocation
import KotlinHighlight.Proofs.Number.Grammar
import KotlinHighlight.Proofs.Pattern.Groups
import KotlinHighlight.Proofs.Vocabulary.Search

/-! # The location that counts

A location is digits, a colon, digits and a colon. The name of a script before it has no digits, so a
search that takes the name along stops at the same location as one that does not
(`searchFrom_eq_leftmost?`): the leftmost one. This is what is read from a line of output, by going
through it once as well as by a pattern that goes back (`parse?_leftmost`).
-/

namespace KotlinHighlight

theorem Pattern.takes_literal (text : Text) : (literal text).Takes (· = text) := by
  intro cursor last
  constructor
  · exact fun member => ⟨text, rfl, reads_literal member⟩
  · rintro ⟨_, rfl, reads⟩
    exact mem_ends_literal reads

namespace ErrorLocation

open Pattern

def IsDigits (text : Text) : Prop :=
  text ≠ [] ∧ ∀ c ∈ text, c.isDigit = true

/-- Whether a text starts with digits, a colon, digits and a colon. -/
def StartsLocation (text : Text) : Prop :=
  ∃ line column rest, IsDigits line ∧ IsDigits column ∧
    text = line ++ ':' :: (column ++ ':' :: rest)

section Digits

variable {digits : Text} (isDigits : IsDigits digits) (rest : Text)
include isDigits

theorem takeWhile_digits : (digits ++ ':' :: rest).takeWhile Char.isDigit = digits := by
  rw [List.takeWhile_append_of_pos isDigits.2]
  exact List.append_nil digits

theorem dropWhile_digits : (digits ++ ':' :: rest).dropWhile Char.isDigit = ':' :: rest := by
  rw [List.dropWhile_append_of_pos isDigits.2]
  rfl

end Digits

theorem coordinate?_eq_some_iff {text digits rest : Text} :
    coordinate? text = some (digits, rest) ↔ IsDigits digits ∧ text = digits ++ ':' :: rest := by
  constructor
  · intro found
    have whole := text.takeWhile_append_dropWhile (p := Char.isDigit)
    have all : ∀ c ∈ text.takeWhile Char.isDigit, c.isDigit = true :=
      fun _ => List.mem_takeWhile_imp
    rw [coordinate?] at found
    split at found
    · rename_i first more after starts stops
      obtain ⟨rfl, rfl⟩ := Prod.mk.inj (Option.some.inj found)
      rw [starts] at all
      rw [starts, stops] at whole
      exact ⟨⟨List.cons_ne_nil first more, all⟩, whole.symm⟩
    · exact absurd found.symm (Option.some_ne_none _)
  · rintro ⟨isDigits, rfl⟩
    rw [coordinate?, takeWhile_digits isDigits, dropWhile_digits isDigits]
    obtain ⟨first, more, rfl⟩ := List.exists_cons_of_ne_nil isDigits.1
    rfl

theorem coordinates?_eq_some_iff {text line column : Text} :
    coordinates? text = some (line, column) ↔ ∃ rest, IsDigits line ∧ IsDigits column ∧
      text = line ++ ':' :: (column ++ ':' :: rest) := by
  constructor
  · intro found
    obtain ⟨⟨_, middle⟩, first, more⟩ := Option.bind_eq_some_iff.mp found
    obtain ⟨⟨_, rest⟩, second, same⟩ := Option.bind_eq_some_iff.mp more
    obtain ⟨rfl, rfl⟩ := Prod.mk.inj (Option.some.inj same)
    obtain ⟨isLine, rfl⟩ := coordinate?_eq_some_iff.mp first
    obtain ⟨isColumn, rfl⟩ := coordinate?_eq_some_iff.mp second
    exact ⟨rest, isLine, isColumn, rfl⟩
  · rintro ⟨rest, isLine, isColumn, rfl⟩
    have first : coordinate? (line ++ ':' :: (column ++ ':' :: rest)) =
        some (line, column ++ ':' :: rest) := coordinate?_eq_some_iff.mpr ⟨isLine, rfl⟩
    have second : coordinate? (column ++ ':' :: rest) = some (column, rest) :=
      coordinate?_eq_some_iff.mpr ⟨isColumn, rfl⟩
    rw [coordinates?, first]
    change (coordinate? (column ++ ':' :: rest)).bind _ = _
    rw [second]
    rfl

theorem isSome_coordinates?_iff {text : Text} :
    (coordinates? text).isSome = true ↔ StartsLocation text := by
  rw [Option.isSome_iff_exists, Prod.exists]
  simp only [coordinates?_eq_some_iff]
  rfl

instance (text : Text) : Decidable (StartsLocation text) :=
  decidable_of_iff _ isSome_coordinates?_iff

/-- A location has the longest digits that stand at its place. -/
theorem coordinates?_of_startsLocation {text : Text} (starts : StartsLocation text) :
    coordinates? text = some (text.takeWhile Char.isDigit,
      (text.drop ((text.takeWhile Char.isDigit).length + 1)).takeWhile Char.isDigit) := by
  obtain ⟨line, column, rest, isLine, isColumn, rfl⟩ := starts
  have after : (line ++ ':' :: (column ++ ':' :: rest)).drop (line.length + 1) =
      column ++ ':' :: rest := List.drop_length_add_append 1
  rw [takeWhile_digits isLine, after, takeWhile_digits isColumn]
  exact coordinates?_eq_some_iff.mpr ⟨rest, isLine, isColumn, rfl⟩

theorem isDigit_of_startsLocation {c : Char} {rest : Text} (starts : StartsLocation (c :: rest)) :
    c.isDigit = true := by
  obtain ⟨line, column, after, ⟨nonempty, all⟩, -, split⟩ := starts
  obtain ⟨first, more, rfl⟩ := List.exists_cons_of_ne_nil nonempty
  obtain ⟨rfl, -⟩ := List.cons.inj split
  exact all c List.mem_cons_self

/-- The digits of the first location in a text, whatever stands before it. -/
def leftmost? : Text → Option (Text × Text)
  | [] => none
  | c :: rest => (coordinates? (c :: rest)).or (leftmost? rest)

/-- What has no digits is passed over. -/
theorem leftmost?_append {label rest : Text} (noDigits : ∀ c ∈ label, c.isDigit = false)
    {found : Text × Text} (here : coordinates? rest = some found) :
    leftmost? (label ++ rest) = some found := by
  induction label with
  | nil =>
    cases rest with
    | nil => exact absurd here.symm (Option.some_ne_none _)
    | cons c rest => rw [List.nil_append, leftmost?, here, Option.some_or]
  | cons c label ih =>
    rw [List.forall_mem_cons] at noDigits
    have fails : coordinates? (c :: (label ++ rest)) = none := by
      rw [← Option.not_isSome_iff_eq_none, isSome_coordinates?_iff]
      intro starts
      exact absurd (noDigits.1.symm.trans (isDigit_of_startsLocation starts)) Bool.false_ne_true
    rw [List.cons_append, leftmost?, fails, Option.none_or, ih noDigits.2]

/-- A search that finds something wherever a location starts, and nothing but locations behind a label
without digits, finds the first location. -/
theorem searchFrom_eq_leftmost? {answer : Cursor → Option (Text × Text)}
    (complete : ∀ cursor, StartsLocation cursor.ahead → (answer cursor).isSome = true)
    (sound : ∀ cursor found, answer cursor = some found → ∃ label rest,
      cursor.ahead = label ++ rest ∧ (∀ c ∈ label, c.isDigit = false) ∧
        coordinates? rest = some found)
    (position : Nat) (before : Option Char) (text : Text) :
    searchFrom answer position before text = leftmost? text := by
  have answered : ∀ cursor found, answer cursor = some found →
      leftmost? cursor.ahead = some found := by
    intro cursor found tried
    obtain ⟨label, rest, ahead, noDigits, here⟩ := sound cursor found tried
    rw [ahead, leftmost?_append noDigits here]
  induction text generalizing position before with
  | nil =>
    rw [searchFrom]
    cases tried : answer ⟨position, before, []⟩ with
    | none => rfl
    | some found => exact (answered _ found tried).symm
  | cons c rest ih =>
    rw [searchFrom]
    cases tried : answer ⟨position, before, c :: rest⟩ with
    | none =>
      have fails : coordinates? (c :: rest) = none := by
        rw [← Option.not_isSome_iff_eq_none, isSome_coordinates?_iff]
        intro starts
        have answers := complete ⟨position, before, c :: rest⟩ starts
        rw [tried] at answers
        exact absurd answers Bool.false_ne_true
      rw [Option.none_or, ih, leftmost?, fails, Option.none_or]
    | some found => exact (answered _ found tried).symm

/-- Where no location starts none is found. -/
theorem leftmost?_eq_none {text : Text}
    (nowhere : ∀ position, ¬StartsLocation (text.drop position)) : leftmost? text = none := by
  induction text with
  | nil => rfl
  | cons c rest ih =>
    have fails : coordinates? (c :: rest) = none := by
      rw [← Option.not_isSome_iff_eq_none, isSome_coordinates?_iff]
      exact nowhere 0
    rw [leftmost?, fails, Option.none_or, ih fun position => nowhere (position + 1)]

/-- Otherwise the first place where one starts counts. -/
theorem leftmost?_of_isLeast {text : Text} {position : Nat}
    (least : IsLeast {position | StartsLocation (text.drop position)} position) :
    leftmost? text = coordinates? (text.drop position) := by
  have starts := isSome_coordinates?_iff.mpr least.1
  induction text generalizing position with
  | nil =>
    rw [List.drop_nil] at starts
    exact absurd starts Bool.false_ne_true
  | cons c rest ih =>
    cases position with
    | zero =>
      obtain ⟨found, here⟩ := Option.isSome_iff_exists.mp starts
      rw [List.drop_zero] at here ⊢
      rw [leftmost?, here, Option.some_or]
    | succ position =>
      have fails : coordinates? (c :: rest) = none := by
        rw [← Option.not_isSome_iff_eq_none, isSome_coordinates?_iff]
        exact fun here => Nat.not_succ_le_zero position (least.2 here)
      rw [leftmost?, fails, Option.none_or]
      refine ih ⟨least.1, fun other there => ?_⟩ starts
      exact Nat.le_of_succ_le_succ (least.2 (show other + 1 ∈ _ from there))

theorem labels_have_no_digits : ∀ label ∈ labels, ∀ c ∈ label, c.isDigit = false := by
  have checked : labels.all (·.all (!·.isDigit)) = true := by decide
  intro label known c member
  have noDigit := List.all_eq_true.mp (List.all_eq_true.mp checked label known) c member
  rwa [Bool.not_eq_true'] at noDigit

/-- A label is dropped from the text, or nothing is. -/
theorem exists_label_append_dropLabel (text : Text) :
    ∃ label, text = label ++ dropLabel text ∧ ∀ c ∈ label, c.isDigit = false := by
  rw [dropLabel]
  split
  · rename_i label found
    have stands := List.find?_some found
    obtain ⟨rest, rfl⟩ := List.isPrefixOf_iff_prefix.mp stands
    refine ⟨label, ?_, labels_have_no_digits label (List.mem_of_find?_eq_some found)⟩
    rw [List.drop_left]
  · exact ⟨[], rfl, List.forall_mem_nil _⟩

theorem firstCoordinates?_eq_searchFrom (position : Nat) (before : Option Char) (text : Text) :
    firstCoordinates? text =
      searchFrom (fun cursor => coordinates? (dropLabel cursor.ahead)) position before text := by
  induction text generalizing position before with
  | nil => rfl
  | cons c rest ih => rw [firstCoordinates?, searchFrom, ← ih]

/-- The digits that are read are those of the first location. -/
theorem firstCoordinates?_eq_leftmost? (text : Text) : firstCoordinates? text = leftmost? text := by
  rw [firstCoordinates?_eq_searchFrom 0 none]
  apply searchFrom_eq_leftmost?
  · intro cursor starts
    obtain ⟨label, split, noDigits⟩ := exists_label_append_dropLabel cursor.ahead
    cases label with
    | nil =>
      rw [List.nil_append] at split
      rw [← split, isSome_coordinates?_iff]
      exact starts
    | cons c label =>
      rw [split] at starts
      have digit := isDigit_of_startsLocation starts
      exact absurd ((noDigits c List.mem_cons_self).symm.trans digit) Bool.false_ne_true
  · intro cursor found tried
    obtain ⟨label, split, noDigits⟩ := exists_label_append_dropLabel cursor.ahead
    exact ⟨label, _, split, noDigits, tried⟩

def digits : Pattern :=
  both (one Char.isDigit) (many (one Char.isDigit))

def scriptLabel : Pattern :=
  optional (sequence [literal "script".toList, optional (literal ".kts".toList), char ':'])

/-- The patterns of a location and of a label before it. -/
def locationAfter (label : Pattern) : List Pattern :=
  [label, digits, char ':', digits, char ':']

/-- The digits of a line and of a column among the parts that the patterns match. -/
def coordinatesOf (parts : List Text) : Text × Text :=
  (parts.getD 1 [], parts.getD 3 [])

theorem takes_digits : digits.Takes IsDigits := by
  refine ((takes_one Char.isDigit).both (takes_many_one Char.isDigit)).congr fun text => ?_
  constructor
  · rintro ⟨_, ⟨c, isDigit, rfl⟩, more, all, rfl⟩
    exact ⟨List.cons_ne_nil c more, List.forall_mem_cons.mpr ⟨isDigit, all⟩⟩
  · rintro ⟨nonempty, all⟩
    obtain ⟨c, more, rfl⟩ := List.exists_cons_of_ne_nil nonempty
    rw [List.forall_mem_cons] at all
    exact ⟨[c], ⟨c, all.1, rfl⟩, more, all.2, rfl⟩

theorem takes_scriptLabel : scriptLabel.Takes (· ∈ [] :: labels) := by
  have parts := ((takes_literal "script".toList).both
    ((takes_literal ".kts".toList).optional.both (Number.takes_char ':'))).optional
  refine parts.congr fun text => ?_
  constructor
  · rintro (⟨_, rfl, _, ⟨_, rfl | rfl, _, rfl, rfl⟩, rfl⟩ | rfl)
    · exact List.mem_cons_of_mem _ (List.mem_cons_of_mem _ (List.mem_singleton_self _))
    · exact List.mem_cons_of_mem _ List.mem_cons_self
    · exact List.mem_cons_self
  · intro member
    rcases List.mem_cons.mp member with rfl | known
    · exact .inr rfl
    · left
      rcases List.mem_cons.mp known with rfl | last
      · exact ⟨_, rfl, _, ⟨[], .inr rfl, _, rfl, rfl⟩, rfl⟩
      · rw [List.mem_singleton.mp last]
        exact ⟨_, rfl, _, ⟨_, .inl rfl, _, rfl, rfl⟩, rfl⟩

section Search

variable {label : Pattern} {isLabel : Text → Prop} (takes : label.Takes isLabel)
include takes

theorem takes_locationAfter : List.Forall₂ Takes (locationAfter label)
    [isLabel, IsDigits, (· = [':']), IsDigits, (· = [':'])] :=
  .cons takes (.cons takes_digits (.cons (Number.takes_char ':')
    (.cons takes_digits (.cons (Number.takes_char ':') .nil))))

/-- What the patterns match is a label and a location. -/
theorem exists_label_of_groups? {cursor : Cursor} {parts : List Text}
    (found : groups? (locationAfter label) cursor = some parts) :
    ∃ start rest, isLabel start ∧ cursor.ahead = start ++ rest ∧
      coordinates? rest = some (coordinatesOf parts) := by
  obtain ⟨good, last, reads⟩ := reads_of_groups? (takes_locationAfter takes) found
  obtain _ | ⟨isStart, _ | ⟨isLine, _ | ⟨rfl, _ | ⟨isColumn, _ | ⟨rfl, _ | _⟩⟩⟩⟩⟩ := good
  rename_i start line column
  refine ⟨start, line ++ ':' :: (column ++ ':' :: last.ahead), isStart, ?_,
    coordinates?_eq_some_iff.mpr ⟨last.ahead, isLine, isColumn, rfl⟩⟩
  rw [reads.ahead]
  simp

/-- Where a location starts the patterns match, if the label may be missing. -/
theorem isSome_groups?_of_startsLocation (absent : isLabel []) {cursor : Cursor}
    (starts : StartsLocation cursor.ahead) :
    (groups? (locationAfter label) cursor).isSome = true := by
  obtain ⟨line, column, rest, isLine, isColumn, ahead⟩ := starts
  have good : List.Forall₂ (fun (good : Text → Prop) text => good text)
      [isLabel, IsDigits, (· = [':']), IsDigits, (· = [':'])] [[], line, [':'], column, [':']] :=
    .cons absent (.cons isLine (.cons rfl (.cons isColumn (.cons rfl .nil))))
  have split : cursor.ahead = [[], line, [':'], column, [':']].flatten ++ rest := by
    rw [ahead]
    simp
  have reads : cursor.Reads [[], line, [':'], column, [':']].flatten ⟨_, _, rest⟩ :=
    ⟨split, rfl, rfl⟩
  exact isSome_groups? (takes_locationAfter takes) good reads

/-- A pattern with a label that has no digits and may be missing leads to the first location. -/
theorem search?_eq_leftmost? (absent : isLabel [])
    (noDigits : ∀ text, isLabel text → ∀ c ∈ text, c.isDigit = false) (text : Text) :
    (search? (locationAfter label) text).map coordinatesOf = leftmost? text := by
  rw [search?, map_searchFrom]
  apply searchFrom_eq_leftmost?
  · intro cursor starts
    rw [Option.isSome_map]
    exact isSome_groups?_of_startsLocation takes absent starts
  · intro cursor found tried
    obtain ⟨parts, matched, rfl⟩ := Option.map_eq_some_iff.mp tried
    obtain ⟨start, rest, isStart, ahead, here⟩ := exists_label_of_groups? takes matched
    exact ⟨start, rest, ahead, noDigits start isStart, here⟩

end Search

/-- The location with some digits of a line and of a column, unless they are too many. -/
def located? (text : Text) (coordinates : Text × Text) : Option ErrorLocation :=
  if coordinates.1.length ≤ 4300 ∧ coordinates.2.length ≤ 4300 then
    some ⟨Decimal.ofDigits coordinates.1, Decimal.ofDigits coordinates.2, text⟩
  else none

/-- The location in a line of output by a search for a pattern with a label before the location. -/
def searched? (label : Pattern) (text : Text) : Option ErrorLocation :=
  ((search? (locationAfter label) text).map coordinatesOf).bind (located? text)

theorem parse?_eq_leftmost? (text : Text) : parse? text = (leftmost? text).bind (located? text) := by
  rw [parse?, firstCoordinates?_eq_leftmost?]
  cases leftmost? text with
  | none => rfl
  | some coordinates => rfl

/-- Where no location starts there is none. Otherwise the first place where one starts counts, with all
digits that stand there, unless these are too many. This is also what a search that goes back finds,
with the name of a script before the location or without. -/
theorem parse?_leftmost (text : Text) :
    ((∀ position, ¬StartsLocation (text.drop position)) → parse? text = none) ∧
    (∀ position, IsLeast {position | StartsLocation (text.drop position)} position →
      let line := (text.drop position).takeWhile Char.isDigit
      let column := (text.drop (position + line.length + 1)).takeWhile Char.isDigit
      parse? text =
        if line.length ≤ 4300 ∧ column.length ≤ 4300 then
          some ⟨Decimal.ofDigits line, Decimal.ofDigits column, text⟩
        else none) ∧
    parse? text = searched? scriptLabel text ∧ parse? text = searched? .empty text := by
  have read := parse?_eq_leftmost? text
  refine ⟨fun nowhere => ?_, fun position least => ?_, ?_, ?_⟩
  · rw [read, leftmost?_eq_none nowhere, Option.bind_none]
  · rw [read, leftmost?_of_isLeast least, coordinates?_of_startsLocation least.1, List.drop_drop]
    rfl
  · have noDigits : ∀ label ∈ [] :: labels, ∀ c ∈ label, c.isDigit = false :=
      List.forall_mem_cons.mpr ⟨List.forall_mem_nil _, labels_have_no_digits⟩
    rw [read, searched?, search?_eq_leftmost? takes_scriptLabel List.mem_cons_self noDigits]
  · have noDigits : ∀ label : Text, label = [] → ∀ c ∈ label, c.isDigit = false := by
      rintro _ rfl
      exact List.forall_mem_nil _
    rw [read, searched?, search?_eq_leftmost? takes_empty rfl noDigits]

/-- The name of a script before a location is passed over, and so is what only looks like a location. -/
theorem parse?_leftmost_behind_name :
    let text := "1:2 script.kts:07:8:9: e".toList
    (IsLeast {position | StartsLocation (text.drop position)} 15 ∧
      parse? text = some ⟨7, 8, text⟩) ∧
    (∀ position, ¬StartsLocation ("10:20".toList.drop position)) ∧ parse? "10:20".toList = none := by
  intro text
  have earliest : ∀ position < 15, ¬StartsLocation (text.drop position) := by decide
  have starts : StartsLocation (text.drop 15) := by decide
  have least : IsLeast {position | StartsLocation (text.drop position)} 15 :=
    ⟨starts, fun position starts =>
      Nat.le_of_not_lt fun early => earliest position early starts⟩
  have nowhere : ∀ position, ¬StartsLocation ("10:20".toList.drop position) := by
    intro position
    by_cases inside : position < 5
    · exact (by decide : ∀ position < 5, ¬StartsLocation ("10:20".toList.drop position)) position inside
    · rw [List.drop_eq_nil_of_le (Nat.le_of_not_lt inside)]
      decide
  exact ⟨⟨least, ((parse?_leftmost text).2.1 15 least).trans (by decide)⟩, nowhere,
    (parse?_leftmost _).1 nowhere⟩

end ErrorLocation

end KotlinHighlight
