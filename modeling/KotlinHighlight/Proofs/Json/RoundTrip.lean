import KotlinHighlight.Proofs.Json.Parts
import KotlinHighlight.Proofs.Json.Scalar

/-! # Written values are read back

A value that is written to its end is read back as it settles, up to what follows it, if it nests no
deeper than the reader goes. A value that is not written to its end is not read at all
(`readsBack`).
-/

namespace KotlinHighlight

namespace Output

theorem append_assoc (first second third : Output) :
    first ++ second ++ third = first ++ (second ++ third) := by
  simp only [append_def, andThen]
  cases done : first.complete <;> cases also : second.complete <;> simp [done, also]

theorem ofText_nil_append (output : Output) : ofText [] ++ output = output := rfl

@[simp] theorem append_ofText_nil (output : Output) : output ++ ofText [] = output := by
  obtain ⟨text, complete⟩ := output
  cases complete <;> simp [append_def, andThen, ofText]

theorem text_append_of_complete {first : Output} (complete : first.complete = true)
    (second : Output) : (first ++ second).text = first.text ++ second.text := by
  rw [append_def, andThen, if_pos complete]

end Output

namespace Json

open Decimal (EndsNumber)

theorem endsNumber_nil : EndsNumber [] := nofun

theorem endsNumber_comma (rest : Text) : EndsNumber (',' :: rest) := by
  rintro c ⟨⟩
  decide

theorem endsNumber_newLine_append (level : Nat) (rest : Text) :
    EndsNumber (newLine level ++ rest) := by
  rintro c ⟨⟩
  decide

theorem skipSpace_eq_self {text : Text} (starts : ∀ c, text.head? = some c → isSpace c = false) :
    skipSpace text = text := by
  cases text with
  | nil => rfl
  | cons c text => exact List.dropWhile_cons_of_neg (Bool.eq_false_iff.mp (starts c rfl))

theorem skipSpace_newLine_append (level : Nat) {text : Text}
    (starts : ∀ c, text.head? = some c → isSpace c = false) :
    skipSpace (newLine level ++ text) = text := by
  have spaces : ∀ c ∈ newLine level, isSpace c = true := by
    intro c member
    rcases List.mem_cons.mp member with rfl | indent
    · rfl
    · rw [List.eq_of_mem_replicate indent]
      rfl
  rw [skipSpace, List.dropWhile_append_of_pos spaces]
  exact skipSpace_eq_self starts

/-- Whether a text that goes on starts neither with white space nor with a closing bracket. -/
def StartsValue (text : Text) : Prop :=
  ∀ c, text.head? = some c → isSpace c = false ∧ c ≠ ']' ∧ c ≠ '\x7d'

theorem StartsValue.skipSpace_newLine {text : Text} (starts : StartsValue text) (level : Nat) :
    skipSpace (newLine level ++ text) = text :=
  skipSpace_newLine_append level fun c first => (starts c first).1

theorem Spells.startsValue {text : Text} {value : Json} (spells : Spells text value) (rest : Text) :
    StartsValue (text ++ rest) := by
  obtain ⟨c, more, rfl, noSpace, noBracket⟩ := spells.starts
  rintro _ ⟨⟩
  refine ⟨noSpace, ?_, ?_⟩ <;>
  · rintro rfl
    exact noBracket (by decide)

/-- A scalar is written as it is spelled. -/
theorem exists_spells {room : Nat} {value : Json} (scalar : value.IsScalar)
    (starts : value.Starts room) :
    ∃ text, Spells text value ∧ ∀ level, writeAfter room [] level value = .ofText text := by
  cases value with
  | null => exact ⟨_, spells_word (by simp [words]), fun _ => rfl⟩
  | bool value => cases value <;> exact ⟨_, spells_word (by simp [words]), fun _ => rfl⟩
  | int value => exact ⟨_, spells_int starts, fun _ => if_pos starts⟩
  | float value => exact ⟨_, spells_float value, fun _ => if_pos starts⟩
  | string units => exact ⟨_, spells_string units, fun _ => rfl⟩
  | array items => exact scalar.elim
  | object members => exact scalar.elim

/-- What follows an item of an array: the other items and the closing bracket. -/
def afterItem (room level : Nat) (items : List Json) (after : Output) : Output :=
  writeItems room (level + 1) items ++ (.ofText (newLine level ++ [']']) ++ after)

/-- What follows a member of an object: the other members and the closing brace. -/
def afterMember (room level : Nat) (members : List (Units × Json)) (after : Output) : Output :=
  writeMembers room (',' :: newLine (level + 1)) (level + 1) members ++
    (.ofText (newLine level ++ ['\x7d']) ++ after)

section Writing

variable {room : Nat}

theorem write_array_append (level : Nat) (item : Json) (items : List Json) (after : Output) :
    writeAfter (room + 1) [] level (array (item :: items)) ++ after =
      writeAfter room ('[' :: newLine (level + 1)) (level + 1) item ++
        afterItem room level items after := by
  rw [writeAfter, Output.ofText_nil_append, Output.append_assoc, Output.append_assoc]
  rfl

theorem write_object_append (level : Nat) (key : Units) (value : Json)
    (members : List (Units × Json)) (after : Output) :
    writeAfter (room + 1) [] level (object ((key, value) :: members)) ++ after =
      .ofText ('\x7b' :: (newLine (level + 1) ++ (writeString key ++ [':', ' ']))) ++
        (writeAfter room [] (level + 1) value ++ afterMember room level members after) := by
  rw [writeAfter, Output.ofText_nil_append, writeMembers, Output.append_assoc, Output.append_assoc,
    Output.append_assoc, List.append_assoc, List.cons_append]
  rfl

theorem text_afterItem_nil (level : Nat) (after : Output) :
    (afterItem room level [] after).text = newLine level ++ (']' :: after.text) :=
  List.append_assoc (newLine level) [']'] after.text

theorem text_afterMember_nil (level : Nat) (after : Output) :
    (afterMember room level [] after).text = newLine level ++ ('\x7d' :: after.text) :=
  List.append_assoc (newLine level) ['\x7d'] after.text

/-- A comma and an item, or nothing if the item is not written at all. -/
theorem text_afterItem_cons (level : Nat) (item : Json) (items : List Json) (after : Output) :
    (afterItem room level (item :: items) after).text =
      if item.Starts room then
        ',' :: (newLine (level + 1) ++
          (writeAfter room [] (level + 1) item ++ afterItem room level items after).text)
      else [] := by
  rw [afterItem, writeItems]
  by_cases starts : item.Starts room
  · rw [if_pos starts, writeAfter_eq_append starts, Output.append_assoc, Output.append_assoc,
      Output.ofText_append_text]
    rfl
  · rw [if_neg starts, writeAfter_of_not_starts starts]
    rfl

theorem text_afterMember_cons (level : Nat) (key : Units) (value : Json)
    (members : List (Units × Json)) (after : Output) :
    (afterMember room level ((key, value) :: members) after).text =
      ',' :: (newLine (level + 1) ++ (writeString key ++ (':' :: ' ' ::
        (writeAfter room [] (level + 1) value ++ afterMember room level members after).text))) := by
  rw [afterMember, writeMembers, Output.append_assoc, Output.append_assoc, Output.ofText_append_text,
    List.append_assoc, List.append_assoc, List.cons_append]
  rfl

theorem skipSpace_afterItem_nil (level : Nat) (after : Output) :
    skipSpace (afterItem room level [] after).text = ']' :: after.text := by
  rw [text_afterItem_nil]
  exact skipSpace_newLine_append level (by rintro c ⟨⟩; rfl)

theorem skipSpace_afterMember_nil (level : Nat) (after : Output) :
    skipSpace (afterMember room level [] after).text = '\x7d' :: after.text := by
  rw [text_afterMember_nil]
  exact skipSpace_newLine_append level (by rintro c ⟨⟩; rfl)

theorem endsNumber_afterItem (level : Nat) (items : List Json) (after : Output) :
    EndsNumber (afterItem room level items after).text := by
  cases items with
  | nil =>
    rw [text_afterItem_nil]
    exact endsNumber_newLine_append level _
  | cons item items =>
    rw [text_afterItem_cons]
    split_ifs
    · exact endsNumber_comma _
    · exact endsNumber_nil

theorem endsNumber_afterMember (level : Nat) (members : List (Units × Json)) (after : Output) :
    EndsNumber (afterMember room level members after).text := by
  cases members with
  | nil =>
    rw [text_afterMember_nil]
    exact endsNumber_newLine_append level _
  | cons entry members =>
    rw [text_afterMember_cons]
    exact endsNumber_comma _

theorem startsValue_scalar {value : Json} (scalar : value.IsScalar) (level : Nat) (after : Output) :
    StartsValue (writeAfter room [] level value ++ after).text := by
  by_cases starts : value.Starts room
  · obtain ⟨text, spells, written⟩ := exists_spells scalar starts
    rw [written]
    exact spells.startsValue after.text
  · rw [writeAfter_of_not_starts starts]
    exact nofun

/-- A value starts with neither white space nor a closing bracket, if any of it is written. -/
theorem startsValue_write (value : Json) (room level : Nat) (after : Output) :
    StartsValue (writeAfter room [] level value ++ after).text := by
  have empty : StartsValue [] := nofun
  have bracket : ∀ c rest, (c = '[' ∨ c = '\x7b') → StartsValue (c :: rest) := by
    rintro c rest (rfl | rfl) _ ⟨⟩ <;> decide
  cases value with
  | array items =>
    cases items with
    | nil => exact bracket '[' _ (.inl rfl)
    | cons item items =>
      cases room with
      | zero => exact empty
      | succ room =>
        rw [write_array_append]
        by_cases starts : item.Starts room
        · rw [writeAfter_eq_append starts, Output.append_assoc]
          exact bracket '[' _ (.inl rfl)
        · rw [writeAfter_of_not_starts starts]
          exact empty
  | object members =>
    cases members with
    | nil => exact bracket '\x7b' _ (.inr rfl)
    | cons entry members =>
      cases room with
      | zero => exact empty
      | succ room =>
        rw [write_object_append]
        exact bracket '\x7b' _ (.inr rfl)
  | _ =>
    refine startsValue_scalar ?_ level after
    exact trivial

end Writing

/-- Whether a value is written to its end, and nests no deeper than it can be read. -/
def Readable (room limit : Nat) (value : Json) : Prop :=
  value.Fits room ∧ value.depth ≤ limit

theorem readable_array (room limit : Nat) (items : List Json) :
    Readable (room + 1) (limit + 1) (array items) ↔ ∀ item ∈ items, Readable room limit item := by
  rw [Readable, fits_array, depth_array_le_iff]
  exact forall₂_and.symm

theorem readable_object (room limit : Nat) (members : List (Units × Json)) :
    Readable (room + 1) (limit + 1) (object members) ↔
      ∀ entry ∈ members, Readable room limit entry.2 := by
  rw [Readable, fits_object, depth_object_le_iff]
  exact forall₂_and.symm

/-- Whether a value is read wherever it was written: as it settles if it is readable, and not at all
otherwise. -/
def ReadsBack (room limit : Nat) (value : Json) : Prop :=
  ∀ level (after : Output), EndsNumber after.text →
    (Readable room limit value →
      readValue? limit (writeAfter room [] level value ++ after).text =
        some (value.settle, after.text)) ∧
    (¬Readable room limit value → readValue? limit (writeAfter room [] level value ++ after).text = none)

theorem readValue?_nil (limit : Nat) : readValue? limit [] = none := by
  cases limit <;> rfl

section Reading

variable {room limit : Nat}

/-- The items of an array are read one after the other, if none of them stops the reader. -/
theorem readItems?_write (level : Nat) (after : Output) {item : Json}
    {items : List Json} (each : ∀ entry ∈ item :: items, ReadsBack room limit entry) {count : Nat}
    (enough : (∀ entry ∈ item :: items, entry.Fits room) → items.length < count) :
    ((∀ entry ∈ item :: items, Readable room limit entry) →
      readItems? (readValue? limit) count
        (writeAfter room [] (level + 1) item ++ afterItem room level items after).text =
          some ((item :: items).map settle, after.text)) ∧
    (¬(∀ entry ∈ item :: items, Readable room limit entry) →
      readItems? (readValue? limit) count
        (writeAfter room [] (level + 1) item ++ afterItem room level items after).text = none) := by
  induction count generalizing item items with
  | zero =>
    refine ⟨fun all => ?_, fun _ => rfl⟩
    exact absurd (enough fun entry member => (all entry member).1) (Nat.not_lt_zero _)
  | succ count ih =>
    obtain ⟨here, others⟩ := List.forall_mem_cons.mp each
    obtain ⟨yes, no⟩ := here (level + 1) _ (endsNumber_afterItem level items after)
    by_cases readable : Readable room limit item
    · rw [readItems?, yes readable]
      cases items with
      | nil =>
        rw [List.forall_mem_singleton]
        refine ⟨fun _ => ?_, fun unreadable => absurd readable unreadable⟩
        dsimp only
        rw [skipSpace_afterItem_nil]
        rfl
      | cons next items =>
        rw [text_afterItem_cons, List.forall_mem_cons, and_iff_right readable]
        by_cases starts : next.Starts room
        · obtain ⟨all, notAll⟩ := ih others fun fits => Nat.lt_of_succ_lt_succ
            (enough (List.forall_mem_cons.mpr ⟨readable.1, fits⟩))
          have comma : ∀ rest, skipSpace (',' :: rest) = ',' :: rest := fun _ => rfl
          rw [if_pos starts]
          simp only [comma]
          rw [(startsValue_write next room (level + 1) _).skipSpace_newLine]
          constructor
          · intro inside
            rw [all inside]
            rfl
          · intro outside
            rw [notAll outside]
            rfl
        · rw [if_neg starts]
          refine ⟨fun all => ?_, fun _ => rfl⟩
          exact absurd (all next List.mem_cons_self).1.starts starts
    · rw [readItems?, no readable]
      exact ⟨fun all => absurd (all item List.mem_cons_self) readable, fun _ => rfl⟩

theorem readMember?_write (level : Nat) (after : Output) (key : Units) {value : Json}
    (reads : ReadsBack room limit value) (ends : EndsNumber after.text) :
    (Readable room limit value →
      readMember? (readValue? limit) (writeString key ++ (':' :: ' ' ::
        (writeAfter room [] level value ++ after).text)) = some ((key, value.settle), after.text)) ∧
    (¬Readable room limit value →
      readMember? (readValue? limit) (writeString key ++ (':' :: ' ' ::
        (writeAfter room [] level value ++ after).text)) = none) := by
  obtain ⟨yes, no⟩ := reads level after ends
  have colon : ∀ rest, skipSpace (':' :: rest) = ':' :: rest := fun _ => rfl
  have space : skipSpace (' ' :: (writeAfter room [] level value ++ after).text) =
      (writeAfter room [] level value ++ after).text :=
    skipSpace_eq_self fun c first => (startsValue_write value room level after c first).1
  rw [writeString, List.append_assoc, List.cons_append, readMember?, List.singleton_append,
    readString?_append]
  simp only [colon]
  rw [space]
  constructor
  · intro readable
    rw [yes readable, Option.map_some]
  · intro unreadable
    rw [no unreadable, Option.map_none]

/-- The members of an object are read one after the other, if none of them stops the reader. -/
theorem readMembers?_write (level : Nat) (after : Output) {key : Units}
    {value : Json} {members : List (Units × Json)}
    (each : ∀ entry ∈ (key, value) :: members, ReadsBack room limit entry.2) {count : Nat}
    (enough : (∀ entry ∈ (key, value) :: members, entry.2.Fits room) → members.length < count) :
    ((∀ entry ∈ (key, value) :: members, Readable room limit entry.2) →
      readMembers? (readValue? limit) count (writeString key ++ (':' :: ' ' ::
        (writeAfter room [] (level + 1) value ++ afterMember room level members after).text)) =
          some (((key, value) :: members).map fun entry => (entry.1, entry.2.settle),
            after.text)) ∧
    (¬(∀ entry ∈ (key, value) :: members, Readable room limit entry.2) →
      readMembers? (readValue? limit) count (writeString key ++ (':' :: ' ' ::
        (writeAfter room [] (level + 1) value ++ afterMember room level members after).text)) = none) := by
  induction count generalizing key value members with
  | zero =>
    refine ⟨fun all => ?_, fun _ => rfl⟩
    exact absurd (enough fun entry member => (all entry member).1) (Nat.not_lt_zero _)
  | succ count ih =>
    obtain ⟨here, others⟩ := List.forall_mem_cons.mp each
    obtain ⟨yes, no⟩ := readMember?_write (level + 1) _ key here
      (endsNumber_afterMember level members after)
    by_cases readable : Readable room limit value
    · rw [readMembers?, yes readable]
      cases members with
      | nil =>
        rw [List.forall_mem_singleton]
        refine ⟨fun _ => ?_, fun unreadable => absurd readable unreadable⟩
        dsimp only
        rw [skipSpace_afterMember_nil]
        rfl
      | cons next members =>
        obtain ⟨nextKey, nextValue⟩ := next
        obtain ⟨all, notAll⟩ := ih others fun fits => Nat.lt_of_succ_lt_succ
          (enough (List.forall_mem_cons.mpr ⟨readable.1, fits⟩))
        have comma : ∀ rest, skipSpace (',' :: rest) = ',' :: rest := fun _ => rfl
        have quote : ∀ rest, skipSpace (newLine (level + 1) ++ (writeString nextKey ++ rest)) =
            writeString nextKey ++ rest :=
          fun _ => skipSpace_newLine_append (level + 1) (by rintro c ⟨⟩; rfl)
        rw [text_afterMember_cons, List.forall_mem_cons, and_iff_right readable]
        simp only [comma]
        rw [quote]
        constructor
        · intro inside
          rw [all inside]
          rfl
        · intro outside
          rw [notAll outside]
          rfl
    · rw [readMembers?, no readable]
      exact ⟨fun all => absurd (all _ List.mem_cons_self) readable, fun _ => rfl⟩

end Reading

section Length

variable {room : Nat}

theorem length_le_text_append {value : Json} (fits : value.Fits room) (level : Nat) (second : Output) :
    second.text.length ≤ (writeAfter room [] level value ++ second).text.length := by
  rw [Output.text_append_of_complete ((complete_writeAfter value room [] level).mpr fits),
    List.length_append]
  exact Nat.le_add_left _ _

/-- Each item takes up room in the text of an array, so the reader does not run out of steps. -/
theorem length_lt_afterItem {items : List Json} (fits : ∀ item ∈ items, item.Fits room) (level : Nat)
    (after : Output) : items.length < (afterItem room level items after).text.length := by
  induction items with
  | nil =>
    rw [text_afterItem_nil]
    exact Nat.succ_pos _
  | cons item items ih =>
    obtain ⟨first, more⟩ := List.forall_mem_cons.mp fits
    have rest := Nat.lt_of_lt_of_le (ih more) (length_le_text_append first (level + 1) _)
    rw [text_afterItem_cons, if_pos first.starts, List.length_cons, List.length_cons,
      List.length_append]
    omega

theorem length_lt_afterMember {members : List (Units × Json)}
    (fits : ∀ entry ∈ members, entry.2.Fits room) (level : Nat) (after : Output) :
    members.length < (afterMember room level members after).text.length := by
  induction members with
  | nil =>
    rw [text_afterMember_nil]
    exact Nat.succ_pos _
  | cons entry members ih =>
    obtain ⟨key, value⟩ := entry
    obtain ⟨first, more⟩ := List.forall_mem_cons.mp fits
    have rest := Nat.lt_of_lt_of_le (ih more) (length_le_text_append first (level + 1) _)
    rw [text_afterMember_cons, List.length_cons, List.length_cons, List.length_append,
      List.length_append, List.length_cons, List.length_cons]
    dsimp only at rest
    omega

end Length

theorem Spells.readValue? {text : Text} {value : Json} (spells : Spells text value) (limit : Nat)
    {rest : Text} (ends : EndsNumber rest) :
    readValue? limit (text ++ rest) = some (value, rest) := by
  rw [← spells.read rest ends]
  obtain ⟨c, more, rfl, -, noBracket⟩ := spells.starts
  cases limit with
  | zero => rfl
  | succ limit =>
    rw [List.cons_append, Json.readValue?]
    · rintro _ opens
      rw [(List.cons.inj opens).1] at noBracket
      exact noBracket (by decide)
    · rintro _ opens
      rw [(List.cons.inj opens).1] at noBracket
      exact noBracket (by decide)

theorem readsBack_scalar {value : Json} (scalar : value.IsScalar) (room limit : Nat) :
    ReadsBack room limit value := by
  intro level after ends
  have shallow : value.depth ≤ limit := by
    rw [depth_of_isScalar scalar]
    exact Nat.zero_le limit
  rw [Readable, and_iff_left shallow, fits_iff_starts scalar, settle_of_isScalar scalar]
  constructor
  · intro starts
    obtain ⟨text, spells, written⟩ := exists_spells scalar starts
    rw [written]
    exact spells.readValue? limit ends
  · intro stuck
    rw [writeAfter_of_not_starts stuck]
    exact readValue?_nil limit

section Containers

variable (limit level : Nat) {inner : Text}

theorem readable_array_nil (room limit : Nat) : Readable room (limit + 1) (array []) :=
  ⟨fits_array_nil room, (depth_array_le_iff [] limit).mpr nofun⟩

theorem readable_object_nil (room limit : Nat) : Readable room (limit + 1) (object []) :=
  ⟨fits_object_nil room, (depth_object_le_iff [] limit).mpr nofun⟩

theorem not_readable_zero_array (room : Nat) (items : List Json) :
    ¬Readable room 0 (array items) := by
  rintro ⟨-, shallow⟩
  rw [depth] at shallow
  omega

theorem not_readable_zero_object (room : Nat) (members : List (Units × Json)) :
    ¬Readable room 0 (object members) := by
  rintro ⟨-, shallow⟩
  rw [depth] at shallow
  omega

/-- The reader goes on with the first item after a bracket and the indentation. -/
theorem readValue?_bracket (starts : StartsValue inner) :
    readValue? (limit + 1) ('[' :: (newLine level ++ inner)) =
      (readItems? (readValue? limit) inner.length inner).map fun (items, remaining) =>
        (array items, remaining) := by
  rw [readValue?, starts.skipSpace_newLine]
  split
  · exact absurd rfl (starts _ rfl).2.1
  · rfl

theorem readValue?_brace (starts : StartsValue inner) :
    readValue? (limit + 1) ('\x7b' :: (newLine level ++ inner)) =
      (readMembers? (readValue? limit) inner.length inner).map fun (entries, remaining) =>
        (object (Assoc.ofPairs entries), remaining) := by
  rw [readValue?, starts.skipSpace_newLine]
  split
  · exact absurd rfl (starts _ rfl).2.2
  · rfl

end Containers

/-- An array is read if its items are, and a bracket without a first item is not. -/
theorem readsBack_array {items : List Json}
    (each : ∀ item ∈ items, ∀ room limit, ReadsBack room limit item) (room limit : Nat) :
    ReadsBack room limit (array items) := by
  intro level after ends
  cases items with
  | nil =>
    cases limit with
    | zero => exact ⟨fun readable => absurd readable (not_readable_zero_array room _), fun _ => rfl⟩
    | succ limit =>
      rw [settle]
      exact ⟨fun _ => rfl, fun unreadable => absurd (readable_array_nil room limit) unreadable⟩
  | cons item items =>
    cases room with
    | zero =>
      refine ⟨fun readable => absurd readable.1 (not_fits_zero_array item items), fun _ => ?_⟩
      exact readValue?_nil limit
    | succ room =>
      rw [write_array_append]
      by_cases starts : item.Starts room
      · rw [writeAfter_eq_append starts, Output.append_assoc, Output.ofText_append_text,
          List.cons_append]
        cases limit with
        | zero =>
          exact ⟨fun readable => absurd readable (not_readable_zero_array _ _), fun _ => rfl⟩
        | succ limit =>
          have enough : (∀ entry ∈ item :: items, entry.Fits room) → items.length <
              (writeAfter room [] (level + 1) item ++
                afterItem room level items after).text.length := by
            intro fits
            obtain ⟨first, more⟩ := List.forall_mem_cons.mp fits
            exact Nat.lt_of_lt_of_le (length_lt_afterItem more level after)
              (length_le_text_append first (level + 1) _)
          obtain ⟨yes, no⟩ :=
            readItems?_write level after (fun item member => each item member room limit) enough
          rw [readable_array, settle, readValue?_bracket limit _ (startsValue_write item _ _ _)]
          constructor
          · intro readable
            rw [yes readable, Option.map_some]
          · intro unreadable
            rw [no unreadable, Option.map_none]
      · rw [writeAfter_of_not_starts starts]
        refine ⟨fun readable => absurd ?_ starts, fun _ => readValue?_nil limit⟩
        exact ((fits_array room _).mp readable.1 item List.mem_cons_self).starts

theorem readsBack_object {members : List (Units × Json)}
    (each : ∀ entry ∈ members, ∀ room limit, ReadsBack room limit entry.2) (room limit : Nat) :
    ReadsBack room limit (object members) := by
  intro level after ends
  cases members with
  | nil =>
    cases limit with
    | zero => exact ⟨fun readable => absurd readable (not_readable_zero_object room _), fun _ => rfl⟩
    | succ limit =>
      rw [settle]
      exact ⟨fun _ => rfl, fun unreadable => absurd (readable_object_nil room limit) unreadable⟩
  | cons entry members =>
    obtain ⟨key, value⟩ := entry
    cases room with
    | zero =>
      refine ⟨fun readable => absurd readable.1 (not_fits_zero_object _ members), fun _ => ?_⟩
      exact readValue?_nil limit
    | succ room =>
      rw [write_object_append, Output.ofText_append_text, List.cons_append, List.append_assoc,
        List.append_assoc, List.cons_append, List.singleton_append]
      cases limit with
      | zero =>
        exact ⟨fun readable => absurd readable (not_readable_zero_object _ _), fun _ => rfl⟩
      | succ limit =>
        have enough : (∀ entry ∈ (key, value) :: members, entry.2.Fits room) → members.length <
            (writeString key ++ (':' :: ' ' :: (writeAfter room [] (level + 1) value ++
              afterMember room level members after).text)).length := by
          intro fits
          obtain ⟨first, more⟩ := List.forall_mem_cons.mp fits
          have shorter := Nat.lt_of_lt_of_le (length_lt_afterMember more level after)
            (length_le_text_append first (level + 1) _)
          rw [List.length_append, List.length_cons, List.length_cons]
          dsimp only at shorter
          omega
        have starts : ∀ rest, StartsValue (writeString key ++ rest) := by
          rintro rest c ⟨⟩
          decide
        obtain ⟨yes, no⟩ :=
          readMembers?_write level after (fun entry member => each entry member room limit) enough
        rw [readable_object, settle, readValue?_brace limit _ (starts _)]
        constructor
        · intro readable
          rw [yes readable, Option.map_some]
        · intro unreadable
          rw [no unreadable, Option.map_none]

/-- Every value is read back as it settles if it is readable, and not at all otherwise. -/
theorem readsBack (value : Json) : ∀ room limit, ReadsBack room limit value := by
  induction value using Json.induction with
  | scalar value scalar => exact readsBack_scalar scalar
  | array items ih => exact readsBack_array ih
  | object members ih => exact readsBack_object ih

/-- A written value is parsed as it settles if it is readable, and not at all otherwise. -/
theorem parse?_write (value : Json) :
    (Readable writingRoom nestingLimit value → parse? value.write.text = some value.settle) ∧
      (¬Readable writingRoom nestingLimit value → parse? value.write.text = none) := by
  have text : value.write.text = (writeAfter writingRoom [] 0 value ++ .ofText []).text := by
    rw [Output.append_ofText_nil, write]
  obtain ⟨yes, no⟩ := readsBack value writingRoom nestingLimit 0 (.ofText []) endsNumber_nil
  have starts : skipSpace value.write.text = value.write.text :=
    skipSpace_eq_self fun c first => (startsValue_write value _ 0 (.ofText []) c (text ▸ first)).1
  rw [parse?, starts, text]
  constructor
  · intro readable
    rw [yes readable]
    rfl
  · intro unreadable
    rw [no unreadable]

end Json

end KotlinHighlight
