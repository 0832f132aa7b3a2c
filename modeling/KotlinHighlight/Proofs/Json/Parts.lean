import Mathlib.Logic.Basic
import KotlinHighlight.Json.Reader
import KotlinHighlight.Json.Writer

/-! # The values inside a value

A value is taken apart into all the values inside it (`parts`). Writing it is complete exactly when
none of them is a whole number with too many digits and there is room for all the levels
(`complete_writeAfter`), and it is read back as it is unless an object in it has a key twice
(`settle_of_hasDistinctKeys`).
-/

namespace KotlinHighlight

namespace Assoc

variable {α β : Type} [DecidableEq α]

theorem put_of_not_mem {key : α} {entries : Assoc α β} (new : key ∉ keys entries) (value : β) :
    put key value entries = entries ++ [(key, value)] := by
  induction entries with
  | nil => rfl
  | cons entry rest ih =>
    obtain ⟨other, old⟩ := entry
    obtain ⟨different, more⟩ := not_or.mp (mt List.mem_cons.mpr new)
    rw [put, if_neg (Ne.symm different), ih more, List.cons_append]

theorem ofPairs_of_nodup {pairs : List (α × β)} (distinct : (keys pairs).Nodup) :
    ofPairs pairs = pairs := by
  suffices ∀ entries, (keys (entries ++ pairs)).Nodup →
      pairs.foldl (fun entries pair => put pair.1 pair.2 entries) entries = entries ++ pairs from
    this [] distinct
  clear distinct
  induction pairs with
  | nil => exact fun entries _ => (List.append_nil entries).symm
  | cons pair pairs ih =>
    intro entries distinct
    have new : pair.1 ∉ keys entries := by
      rw [keys, List.map_append, List.nodup_append] at distinct
      exact fun known => distinct.2.2 pair.1 known pair.1 List.mem_cons_self rfl
    rw [List.append_cons] at distinct ⊢
    rw [List.foldl_cons, put_of_not_mem new]
    exact ih (entries ++ [pair]) distinct

end Assoc

namespace Json

theorem sizeOf_item_lt {item : Json} {items : List Json} (member : item ∈ items) :
    sizeOf item < sizeOf (array items) := by
  have inside := List.sizeOf_lt_of_mem member
  have whole := array.sizeOf_spec items
  omega

theorem sizeOf_member_lt {entry : Units × Json} {members : List (Units × Json)}
    (member : entry ∈ members) : sizeOf entry.2 < sizeOf (object members) := by
  have inside := List.sizeOf_lt_of_mem member
  have part : sizeOf entry = 1 + sizeOf entry.1 + sizeOf entry.2 := rfl
  have whole := object.sizeOf_spec members
  omega

/-- Whether a value is neither an array nor an object. -/
def IsScalar : Json → Prop
  | array _ | object _ => False
  | _ => True

/-- What holds of scalars, and of a container if it holds of all that stands in it, holds of every
value. -/
@[elab_as_elim]
theorem induction {motive : Json → Prop} (scalar : ∀ value, value.IsScalar → motive value)
    (array : ∀ items, (∀ item ∈ items, motive item) → motive (array items))
    (object : ∀ members, (∀ entry ∈ members, motive entry.2) → motive (object members))
    (value : Json) : motive value := by
  refine @Json.rec motive (fun items => ∀ item ∈ items, motive item)
    (fun members => ∀ entry ∈ members, motive entry.2) (fun entry => motive entry.2)
    (scalar null trivial) (fun value => scalar (bool value) trivial)
    (fun value => scalar (int value) trivial) (fun value => scalar (float value) trivial)
    (fun units => scalar (string units) trivial) array object (fun _ => nofun)
    (fun _ _ one more => ?_) (fun _ => nofun) (fun _ _ one more => ?_) (fun _ _ one => one) value
  · exact List.forall_mem_cons.mpr ⟨one, more⟩
  · exact List.forall_mem_cons.mpr ⟨one, more⟩

/-- All the values inside a value, with the value itself. -/
def parts : Json → List Json
  | array items => array items :: items.flatMap parts
  | object members => object members :: members.flatMap fun entry => entry.2.parts
  | value => [value]
decreasing_by
  · exact sizeOf_item_lt ‹_›
  · exact sizeOf_member_lt ‹_›

/-- How deeply the arrays and objects of a value nest. -/
def depth : Json → Nat
  | array items => items.foldr (fun item deepest => max item.depth deepest) 0 + 1
  | object members => members.foldr (fun entry deepest => max entry.2.depth deepest) 0 + 1
  | _ => 0
decreasing_by
  · exact sizeOf_item_lt ‹_›
  · exact sizeOf_member_lt ‹_›

/-- For how many levels there must be room to write a value: those of the containers that are not
empty, and one more for a floating-point number. -/
def height : Json → Nat
  | array items => items.foldr (fun item highest => max (item.height + 1) highest) 0
  | object members => members.foldr (fun entry highest => max (entry.2.height + 1) highest) 0
  | float _ => 1
  | _ => 0
decreasing_by
  · exact sizeOf_item_lt ‹_›
  · exact sizeOf_member_lt ‹_›

/-- A value as it is read back: a repeated key keeps its first place and takes its last value. -/
def settle : Json → Json
  | array items => array (items.map settle)
  | object members => object (Assoc.ofPairs (members.map fun entry => (entry.1, entry.2.settle)))
  | value => value
decreasing_by
  · exact sizeOf_item_lt ‹_›
  · exact sizeOf_member_lt ‹_›

section Scalar

variable {value : Json} (scalar : value.IsScalar)
include scalar

theorem parts_of_isScalar : value.parts = [value] := by
  cases value with
  | array items => exact scalar.elim
  | object members => exact scalar.elim
  | _ => rw [parts] <;> exact nofun

theorem depth_of_isScalar : value.depth = 0 := by
  cases value with
  | array items => exact scalar.elim
  | object members => exact scalar.elim
  | _ => rw [depth] <;> exact nofun

theorem settle_of_isScalar : value.settle = value := by
  cases value with
  | array items => exact scalar.elim
  | object members => exact scalar.elim
  | _ => rw [settle] <;> exact nofun

end Scalar

/-- Whether each key of an object stands there once. -/
def HasDistinctKeys : Json → Prop
  | object members => (Assoc.keys members).Nodup
  | _ => True

/-- A value without repeated keys is read back as it is. -/
theorem settle_of_hasDistinctKeys {value : Json}
    (distinct : ∀ part ∈ value.parts, part.HasDistinctKeys) : value.settle = value := by
  induction value using Json.induction with
  | scalar value scalar => exact settle_of_isScalar scalar
  | array items ih =>
    rw [parts, List.forall_mem_cons] at distinct
    have same : ∀ item ∈ items, item.settle = item := fun item member =>
      ih item member fun part inside => distinct.2 part (List.mem_flatMap.mpr ⟨item, member, inside⟩)
    rw [settle, List.map_congr_left same, List.map_id']
  | object members ih =>
    rw [parts, List.forall_mem_cons] at distinct
    have same : ∀ entry ∈ members, (entry.1, entry.2.settle) = entry := fun entry member =>
      Prod.ext rfl (ih entry member fun part inside =>
        distinct.2 part (List.mem_flatMap.mpr ⟨entry, member, inside⟩))
    rw [settle, List.map_congr_left same, List.map_id', Assoc.ofPairs_of_nodup distinct.1]

/-- Whether a value is no whole number with too many digits. -/
def IsShort : Json → Prop
  | int value => isWritable value
  | _ => True

instance : DecidablePred IsShort
  | int value => inferInstanceAs (Decidable (isWritable value = true))
  | null | bool _ | float _ | string _ | array _ | object _ => isTrue trivial

/-- Whether no whole number in a value has too many digits. -/
def HasShortNumbers (value : Json) : Prop :=
  ∀ part ∈ value.parts, part.IsShort

theorem hasShortNumbers_iff_isShort {value : Json} (scalar : value.IsScalar) :
    value.HasShortNumbers ↔ value.IsShort := by
  rw [HasShortNumbers, parts_of_isScalar scalar, List.forall_mem_singleton]

theorem hasShortNumbers_array (items : List Json) :
    HasShortNumbers (array items) ↔ ∀ item ∈ items, item.HasShortNumbers := by
  rw [HasShortNumbers, parts, List.forall_mem_cons, List.forall_mem_flatMap]
  exact and_iff_right trivial

theorem hasShortNumbers_object (members : List (Units × Json)) :
    HasShortNumbers (object members) ↔ ∀ entry ∈ members, entry.2.HasShortNumbers := by
  rw [HasShortNumbers, parts, List.forall_mem_cons, List.forall_mem_flatMap]
  exact and_iff_right trivial

theorem not_hasShortNumbers_iff {value : Json} : ¬value.HasShortNumbers ↔
    ∃ number, int number ∈ value.parts ∧
      Decimal.digitLimit < (Decimal.digitsOf number.natAbs).length := by
  constructor
  · intro lengthy
    obtain ⟨part, found⟩ := not_forall.mp lengthy
    obtain ⟨inside, long⟩ := Classical.not_imp.mp found
    cases part with
    | int number => exact ⟨number, inside, Nat.lt_of_not_le (mt decide_eq_true long)⟩
    | _ => exact absurd trivial long
  · rintro ⟨number, inside, long⟩ short
    exact Nat.not_le_of_lt long (of_decide_eq_true (short _ inside))

theorem foldr_max_le_iff {α : Type} (height : α → Nat) (items : List α) (bound : Nat) :
    items.foldr (fun item deepest => max (height item) deepest) 0 ≤ bound ↔
      ∀ item ∈ items, height item ≤ bound := by
  induction items with
  | nil => simp
  | cons item items ih => rw [List.foldr_cons, Nat.max_le, ih, List.forall_mem_cons]

theorem depth_array_le_iff (items : List Json) (limit : Nat) :
    (array items).depth ≤ limit + 1 ↔ ∀ item ∈ items, item.depth ≤ limit := by
  rw [depth, Nat.add_le_add_iff_right, foldr_max_le_iff]

theorem depth_object_le_iff (members : List (Units × Json)) (limit : Nat) :
    (object members).depth ≤ limit + 1 ↔ ∀ entry ∈ members, entry.2.depth ≤ limit := by
  rw [depth, Nat.add_le_add_iff_right, foldr_max_le_iff fun entry : Units × Json => entry.2.depth]

theorem height_array_le_iff (items : List Json) (room : Nat) :
    (array items).height ≤ room ↔ ∀ item ∈ items, item.height + 1 ≤ room := by
  rw [height, foldr_max_le_iff fun item : Json => item.height + 1]

theorem height_object_le_iff (members : List (Units × Json)) (room : Nat) :
    (object members).height ≤ room ↔ ∀ entry ∈ members, entry.2.height + 1 ≤ room := by
  rw [height, foldr_max_le_iff fun entry : Units × Json => entry.2.height + 1]

theorem depth_item_lt {item : Json} {items : List Json} (member : item ∈ items) :
    item.depth < (array items).depth := by
  rw [depth.eq_def (array items)]
  exact Nat.lt_succ_of_le ((foldr_max_le_iff depth items _).mp (Nat.le_refl _) item member)

theorem depth_member_lt {entry : Units × Json} {members : List (Units × Json)}
    (member : entry ∈ members) : entry.2.depth < (object members).depth := by
  rw [depth.eq_def (object members)]
  exact Nat.lt_succ_of_le
    ((foldr_max_le_iff (fun entry => entry.2.depth) members _).mp (Nat.le_refl _) entry member)

/-- Only the spelling of a floating-point number needs room for a level that no container has. -/
theorem height_le_depth_add_one (value : Json) : value.height ≤ value.depth + 1 := by
  induction value using Json.induction with
  | scalar value scalar =>
    cases value with
    | float value => rw [height]; exact Nat.succ_pos _
    | array items => exact scalar.elim
    | object members => exact scalar.elim
    | _ => rw [height] <;> first | exact Nat.zero_le _ | exact nofun
  | array items ih =>
    refine (height_array_le_iff items _).mpr fun item member => ?_
    exact Nat.add_le_add_right (Nat.le_trans (ih item member) (depth_item_lt member)) 1
  | object members ih =>
    refine (height_object_le_iff members _).mpr fun entry member => ?_
    exact Nat.add_le_add_right (Nat.le_trans (ih entry member) (depth_member_lt member)) 1

/-- Whether a value can be written to its end when there is room for some more levels. -/
def Fits (room : Nat) (value : Json) : Prop :=
  value.HasShortNumbers ∧ value.height ≤ room

/-- There is room for a value that nests less deeply than there is room. -/
theorem fits_of_depth_lt {room : Nat} {value : Json} (short : value.HasShortNumbers)
    (shallow : value.depth < room) : value.Fits room :=
  ⟨short, Nat.le_trans (height_le_depth_add_one value) shallow⟩

theorem fits_array (room : Nat) (items : List Json) :
    Fits (room + 1) (array items) ↔ ∀ item ∈ items, item.Fits room := by
  rw [Fits, hasShortNumbers_array, height_array_le_iff]
  simp only [Nat.add_le_add_iff_right]
  exact forall₂_and.symm

theorem fits_object (room : Nat) (members : List (Units × Json)) :
    Fits (room + 1) (object members) ↔ ∀ entry ∈ members, entry.2.Fits room := by
  rw [Fits, hasShortNumbers_object, height_object_le_iff]
  simp only [Nat.add_le_add_iff_right]
  exact forall₂_and.symm

theorem fits_array_nil (room : Nat) : Fits room (array []) :=
  ⟨(hasShortNumbers_array []).mpr nofun, (height_array_le_iff [] room).mpr nofun⟩

theorem fits_object_nil (room : Nat) : Fits room (object []) :=
  ⟨(hasShortNumbers_object []).mpr nofun, (height_object_le_iff [] room).mpr nofun⟩

theorem not_fits_zero_array (item : Json) (items : List Json) : ¬Fits 0 (array (item :: items)) :=
  fun fits => Nat.not_succ_le_zero _ ((height_array_le_iff _ 0).mp fits.2 item List.mem_cons_self)

theorem not_fits_zero_object (entry : Units × Json) (members : List (Units × Json)) :
    ¬Fits 0 (object (entry :: members)) :=
  fun fits => Nat.not_succ_le_zero _ ((height_object_le_iff _ 0).mp fits.2 entry List.mem_cons_self)

/-- Whether anything of a value is put out, or at least what leads to it. -/
def Starts (room : Nat) : Json → Prop
  | int value => isWritable value
  | float _ => 0 < room
  | _ => True

instance (room : Nat) : DecidablePred (Starts room)
  | int value => inferInstanceAs (Decidable (isWritable value = true))
  | float _ => inferInstanceAs (Decidable (0 < room))
  | null | bool _ | string _ | array _ | object _ => isTrue trivial

theorem fits_iff_starts {value : Json} (scalar : value.IsScalar) (room : Nat) :
    value.Fits room ↔ value.Starts room := by
  rw [Fits, hasShortNumbers_iff_isShort scalar]
  cases value with
  | int value => exact and_iff_left (by rw [height] <;> first | exact room.zero_le | exact nofun)
  | float value => exact (and_iff_right trivial).trans (by rw [height]; exact Iff.rfl)
  | array items => exact scalar.elim
  | object members => exact scalar.elim
  | _ => exact iff_of_true ⟨trivial, by rw [height] <;> first | exact room.zero_le | exact nofun⟩ trivial

theorem Fits.starts {room : Nat} {value : Json} (fits : value.Fits room) : value.Starts room := by
  cases value with
  | array items => trivial
  | object members => trivial
  | _ => refine (fits_iff_starts ?_ room).mp fits; trivial

section Complete

/-- A value that does not start leaves not even its lead. -/
theorem writeAfter_of_not_starts {room : Nat} {value : Json} (stuck : ¬value.Starts room)
    (lead : Text) (level : Nat) : writeAfter room lead level value = .failure := by
  cases value with
  | int value => exact if_neg stuck
  | float value => exact if_neg stuck
  | _ => exact absurd trivial stuck

/-- Any other value is put out after its lead. -/
theorem writeAfter_eq_append {room : Nat} {value : Json} (starts : value.Starts room) (lead : Text)
    (level : Nat) :
    writeAfter room lead level value = .ofText lead ++ writeAfter room [] level value := by
  cases value with
  | int value =>
    have writable : isWritable value = true := starts
    rw [writeAfter, writeAfter, if_pos writable, if_pos writable]
    rfl
  | null => rfl
  | bool value => cases value <;> rfl
  | float value =>
    have deep : 0 < room := starts
    rw [writeAfter, writeAfter, if_pos deep, if_pos deep]
    rfl
  | string units => rfl
  | array items => cases items <;> rfl
  | object members => cases members <;> rfl

theorem complete_of_isScalar {room : Nat} {value : Json} (scalar : value.IsScalar)
    (starts : value.Starts room) (lead : Text) (level : Nat) :
    (writeAfter room lead level value).complete = true := by
  cases value with
  | bool value => cases value <;> rfl
  | int value => exact congrArg Output.complete (if_pos starts)
  | float value => exact congrArg Output.complete (if_pos starts)
  | array items => exact scalar.elim
  | object members => exact scalar.elim
  | _ => rfl

theorem complete_writeItems {room : Nat} {items : List Json}
    (each : ∀ item ∈ items,
      ∀ lead level, (writeAfter room lead level item).complete = true ↔ item.Fits room)
    (level : Nat) :
    (writeItems room level items).complete = true ↔ ∀ item ∈ items, item.Fits room := by
  induction items with
  | nil => exact iff_of_true rfl nofun
  | cons item items ih =>
    obtain ⟨first, more⟩ := List.forall_mem_cons.mp each
    rw [writeItems, Output.append_complete, Bool.and_eq_true, first, ih more, List.forall_mem_cons]

theorem complete_writeMembers {room : Nat} {members : List (Units × Json)}
    (each : ∀ entry ∈ members,
      ∀ lead level, (writeAfter room lead level entry.2).complete = true ↔ entry.2.Fits room)
    (lead : Text) (level : Nat) :
    (writeMembers room lead level members).complete = true ↔
      ∀ entry ∈ members, entry.2.Fits room := by
  induction members generalizing lead with
  | nil => exact iff_of_true rfl nofun
  | cons entry members ih =>
    obtain ⟨key, value⟩ := entry
    obtain ⟨first, more⟩ := List.forall_mem_cons.mp each
    rw [writeMembers, Output.ofText_append_complete, Output.append_complete, Bool.and_eq_true, first,
      ih more, List.forall_mem_cons]

/-- The writer gets to the end of a value exactly when it can. -/
theorem complete_writeAfter (value : Json) :
    ∀ room lead level, (writeAfter room lead level value).complete = true ↔ value.Fits room := by
  induction value using Json.induction with
  | scalar value scalar =>
    intro room lead level
    rw [fits_iff_starts scalar]
    by_cases starts : value.Starts room
    · exact iff_of_true (complete_of_isScalar scalar starts lead level) starts
    · rw [writeAfter_of_not_starts starts]
      exact iff_of_false Bool.false_ne_true starts
  | array items ih =>
    intro room lead level
    cases items with
    | nil => exact iff_of_true rfl (fits_array_nil room)
    | cons item items =>
      cases room with
      | zero => exact iff_of_false Bool.false_ne_true (not_fits_zero_array item items)
      | succ room =>
        obtain ⟨first, more⟩ := List.forall_mem_cons.mp fun item member => ih item member room
        rw [fits_array, writeAfter, Output.ofText_append_complete, Output.append_complete,
          Output.append_complete, Bool.and_eq_true, Bool.and_eq_true, first,
          complete_writeItems more, List.forall_mem_cons]
        exact and_congr_right fun _ => and_iff_left rfl
  | object members ih =>
    intro room lead level
    cases members with
    | nil => exact iff_of_true rfl (fits_object_nil room)
    | cons entry members =>
      cases room with
      | zero => exact iff_of_false Bool.false_ne_true (not_fits_zero_object entry members)
      | succ room =>
        rw [fits_object, writeAfter, Output.ofText_append_complete, Output.append_complete,
          Bool.and_eq_true, complete_writeMembers fun entry member => ih entry member room]
        exact and_iff_left rfl

end Complete

end Json

end KotlinHighlight
