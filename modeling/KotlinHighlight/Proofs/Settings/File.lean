import KotlinHighlight.Proofs.Json.Loaded
import KotlinHighlight.Proofs.Json.RoundTrip
import KotlinHighlight.Settings.File

/-! # Saving settings and loading them

Settings that can be written to their end are loaded as they were saved (`load_save`), and those that
were loaded from a file always are (`load_save_load`). If settings cannot be written, because a number
in them is too long or they nest too deeply (`complete_write_eq_false_iff`), nothing of them is loaded,
and neither is what the file held before (`save_keeps_iff`).
-/

namespace KotlinHighlight.SettingsFile

open Json (Readable nestingLimit writingRoom)

@[simp] theorem text?_ofText (text : Text) : (ofText text).text? = some text := by
  have decoded : String.fromUTF8? (String.ofList text).toUTF8 = some (String.ofList text) :=
    dif_pos (String.ofList text).isValidUTF8
  rw [text?, ofText, Option.bind_some, decoded, Option.map_some, String.toList_ofList]

theorem load_ofText (text : Text) : (ofText text).load = settingsOf text := by
  rw [load, text?_ofText]
  rfl

/-- A file whose text is known is that text in UTF-8. -/
theorem text?_eq_some_iff {file : SettingsFile} {text : Text} :
    file.text? = some text ↔ file = ofText text := by
  constructor
  · intro known
    obtain ⟨bytes⟩ := file
    obtain ⟨string, decoded, rfl⟩ := Option.map_eq_some_iff.mp known
    obtain ⟨content, rfl, decoded⟩ := Option.bind_eq_some_iff.mp decoded
    obtain ⟨valid, same⟩ := Option.dite_none_right_eq_some.mp decoded
    obtain rfl := Option.some.inj same
    rw [ofText, String.ofList_toList]
    rfl
  · rintro rfl
    exact text?_ofText text

theorem readable_of_depth_le {settings : Json} (short : settings.HasShortNumbers)
    (shallow : settings.depth ≤ nestingLimit) : Readable writingRoom nestingLimit settings :=
  ⟨Json.fits_of_depth_lt short (Nat.lt_of_le_of_lt shallow (by decide)), shallow⟩

/-- What is loaded after saving depends only on what was saved. -/
theorem load_save_of_readable (file : SettingsFile) {settings : Json}
    (readable : Readable writingRoom nestingLimit settings) :
    (file.save settings).load = settings.settle.members?.getD [] := by
  rw [load, save, text?_ofText, Option.map_some, Option.getD_some, settingsOf,
    (Json.parse?_write settings).1 readable, Option.bind_some]

theorem load_save_of_not_readable (file : SettingsFile) {settings : Json}
    (unreadable : ¬Readable writingRoom nestingLimit settings) : (file.save settings).load = [] := by
  rw [load, save, text?_ofText, Option.map_some, Option.getD_some, settingsOf,
    (Json.parse?_write settings).2 unreadable]
  rfl

/-- Settings are loaded as they were saved, whatever the file held before: if no whole number in
them has too many digits, no object has a key twice, and they do not nest too deeply. -/
theorem load_save (file : SettingsFile) {members : Assoc Units Json}
    (short : ∀ number, Json.int number ∈ (Json.object members).parts →
      (Decimal.digitsOf number.natAbs).length ≤ Decimal.digitLimit)
    (distinct : ∀ entries, Json.object entries ∈ (Json.object members).parts →
      (Assoc.keys entries).Nodup)
    (shallow : (Json.object members).depth ≤ nestingLimit) :
    (file.save (.object members)).load = members := by
  have few : (Json.object members).HasShortNumbers := by
    intro part inside
    cases part with
    | int number => exact decide_eq_true (short number inside)
    | _ => trivial
  have settled : (Json.object members).settle = .object members := by
    apply Json.settle_of_hasDistinctKeys
    intro part inside
    cases part with
    | object entries => exact distinct entries inside
    | _ => trivial
  rw [load_save_of_readable file (readable_of_depth_le few shallow), settled]
  rfl

/-- An object in an array and a number that is below zero and yet zero are loaded as they were
saved. -/
theorem load_save_of_nested :
    let members : Assoc Units Json :=
      [([0x61], .array [.int (-5), .float (.finite true ⟨0, by decide⟩),
          .object [([0xd83d, 0xde00], .null)]]),
        ([0x62], .object [])]
    (missing.save (.object members)).load = members := by
  intro members
  refine load_save missing ?_ ?_ ?_
  · intro number inside
    obtain rfl : number = -5 := by simpa [members, Json.parts] using inside
    decide
  · intro entries inside
    have known : entries = members ∨ entries = [([0xd83d, 0xde00], .null)] ∨ entries = [] := by
      simpa [members, Json.parts] using inside
    rcases known with rfl | rfl | rfl <;> decide
  · simp [members, Json.depth, nestingLimit]

/-- The settings that a file holds are like a value that is read. -/
theorem isRead_load (file : SettingsFile) : Json.IsRead nestingLimit (.object file.load) := by
  rw [load]
  cases file.text? with
  | none => exact Json.isRead_object (List.forall_mem_nil _)
  | some text =>
    rw [Option.map_some, Option.getD_some, settingsOf]
    cases read : Json.parse? text with
    | none => exact Json.isRead_object (List.forall_mem_nil _)
    | some value =>
      cases value with
      | object members => exact Json.isRead_of_parse? read
      | _ => exact Json.isRead_object (List.forall_mem_nil _)

/-- Settings that were loaded from some file can be saved to any other, and stay the same. -/
theorem load_save_load (file other : SettingsFile) :
    (other.save (.object file.load)).load = file.load := by
  have read := file.isRead_load
  rw [load_save_of_readable other (readable_of_depth_le read.short read.shallow), read.settled]
  rfl

/-- Saving fails exactly when some whole number in the settings has too many digits or there is no room
for all their levels. -/
theorem complete_write_eq_false_iff {settings : Json} :
    settings.write.complete = false ↔
      (∃ number, Json.int number ∈ settings.parts ∧
        Decimal.digitLimit < (Decimal.digitsOf number.natAbs).length) ∨
      writingRoom < settings.height := by
  rw [← Bool.not_eq_true, Json.write, Json.complete_writeAfter, Json.Fits, not_and_or, Nat.not_le,
    Json.not_hasShortNumbers_iff]

/-- Nothing is loaded from what was put out of settings before saving them failed. -/
theorem load_save_of_failed (file : SettingsFile) {settings : Json}
    (failed : settings.write.complete = false) : (file.save settings).load = [] := by
  refine load_save_of_not_readable file fun readable => ?_
  have complete := (Json.complete_writeAfter settings writingRoom [] 0).mpr readable.1
  exact Bool.false_ne_true (failed.symm.trans complete)

/-- If settings cannot be saved, the file stays as it was only if it held just as much as could be
written of them, and what is loaded stays the same only if nothing could be loaded before. -/
theorem save_keeps_iff (file : SettingsFile) {settings : Json}
    (failed : settings.write.complete = false) :
    (file.save settings = file ↔ file.text? = some settings.write.text) ∧
      (file.save settings).load = [] ∧ ((file.save settings).load = file.load ↔ file.load = []) := by
  have forgotten := load_save_of_failed file failed
  refine ⟨?_, forgotten, ?_⟩
  · rw [text?_eq_some_iff, save]
    exact eq_comm
  · rw [forgotten]
    exact eq_comm

section TooLong

theorem length_digitsOf_pow {count : Nat} (positive : 0 < count) :
    count < (Decimal.digitsOf ((Nat.pow 10 count : Nat) : Int).natAbs).length := by
  rw [Int.natAbs_natCast, Decimal.digitsOf, ← Nat.not_le, Nat.length_toDigits_le_iff (by decide) positive]
  exact Nat.lt_irrefl _

def ofNumber (number : Int) : Json :=
  .object [([0x61], .int number)]

-- For any number, so that the power of ten below is not evaluated.
theorem int_mem_parts_ofNumber (number : Int) : .int number ∈ (ofNumber number).parts := by
  simp [ofNumber, Json.parts]

theorem complete_write_ofNumber_pow :
    (ofNumber (Nat.pow 10 Decimal.digitLimit : Nat)).write.complete = false :=
  complete_write_eq_false_iff.mpr
    (.inl ⟨_, int_mem_parts_ofNumber _, length_digitsOf_pow (by decide)⟩)

end TooLong

/-- A file in which something could be loaded, and settings of which only the start is written. -/
theorem save_keeps_iff_of_long_number :
    let file := ofText "\x7b\"a\": 1\x7d".toList
    let settings := ofNumber (Nat.pow 10 Decimal.digitLimit : Nat)
    (file.save settings = file ↔ file.text? = some settings.write.text) ∧
      (file.save settings).load = [] ∧
        ((file.save settings).load = file.load ↔ file.load = []) :=
  save_keeps_iff _ complete_write_ofNumber_pow

/-- The settings that a file held are lost when others are saved that cannot be written. -/
theorem save_forgets_at_long_number :
    let file := ofText "\x7b\"a\": 1\x7d".toList
    let settings := ofNumber (Nat.pow 10 Decimal.digitLimit : Nat)
    settings.write.complete = false ∧ file.save settings ≠ file ∧
      (file.save settings).load ≠ file.load := by
  intro file settings
  have before : file.load = [([0x61], .int 1)] := by
    rw [load, text?_ofText]
    rfl
  have after : (file.save settings).load = [] :=
    load_save_of_failed file complete_write_ofNumber_pow
  have changed : (file.save settings).load ≠ file.load := by
    rw [before, after]
    exact nofun
  exact ⟨complete_write_ofNumber_pow, fun same => changed (congrArg load same), changed⟩

end KotlinHighlight.SettingsFile
