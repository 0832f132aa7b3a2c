import KotlinHighlight.Proofs.Json.Scalar
import KotlinHighlight.Proofs.Json.Parts

/-! # The values that can be read

Whatever text is read as a value, none of the whole numbers in the value has too many digits, it nests
no deeper than the limit, and no object in it has a key twice (`isRead_of_parse?`).
-/

namespace KotlinHighlight

namespace Assoc

variable {α β : Type} [DecidableEq α]

/-- What holds of a new value and of the old ones holds of all of them. -/
theorem forall_mem_put {property : β → Prop} {entries : Assoc α β} {value : β}
    (new : property value) (old : ∀ entry ∈ entries, property entry.2) (key : α) :
    ∀ entry ∈ put key value entries, property entry.2 := by
  induction entries with
  | nil => exact List.forall_mem_singleton.mpr new
  | cons entry rest ih =>
    obtain ⟨first, more⟩ := List.forall_mem_cons.mp old
    rw [put]
    split
    · exact List.forall_mem_cons.mpr ⟨new, more⟩
    · exact List.forall_mem_cons.mpr ⟨first, ih more⟩

theorem nodup_keys_put {entries : Assoc α β} (distinct : (keys entries).Nodup) (key : α)
    (value : β) : (keys (put key value entries)).Nodup := by
  rw [keys_put]
  split
  · exact distinct
  · rename_i new
    refine List.nodup_append.mpr ⟨distinct, by simp, fun other known last here same => new ?_⟩
    rw [← List.mem_singleton.mp here, ← same]
    exact known

/-- Pairs that are given one after the other make up entries with distinct keys, whose values are among
the given ones. -/
theorem ofPairs_keeps {property : β → Prop} {pairs : List (α × β)}
    (each : ∀ pair ∈ pairs, property pair.2) :
    (∀ entry ∈ ofPairs pairs, property entry.2) ∧ (keys (ofPairs pairs)).Nodup := by
  suffices ∀ entries : Assoc α β, (∀ entry ∈ entries, property entry.2) → (keys entries).Nodup →
      let all := pairs.foldl (fun entries pair => put pair.1 pair.2 entries) entries
      (∀ entry ∈ all, property entry.2) ∧ (keys all).Nodup from
    this [] (List.forall_mem_nil _) List.nodup_nil
  induction pairs with
  | nil => exact fun entries old distinct => ⟨old, distinct⟩
  | cons pair pairs ih =>
    intro entries old distinct
    obtain ⟨first, more⟩ := List.forall_mem_cons.mp each
    exact ih more _ (forall_mem_put first old pair.1) (nodup_keys_put distinct pair.1 pair.2)

end Assoc

namespace Decimal

theorem ofDigits_lt {digits : Text} (all : IsDigits digits) :
    ofDigits digits < Nat.pow 10 digits.length := by
  induction digits with
  | nil => decide
  | cons c digits ih =>
    obtain ⟨first, more⟩ := List.forall_mem_cons.mp all
    have later := ih more
    have split : ofDigits (c :: digits) =
        Nat.pow 10 digits.length * (c.toNat - '0'.toNat) + ofDigits digits := by
      rw [ofDigits, Nat.ofDigitChars_cons, Nat.ofDigitChars_eq_ofDigitChars_zero, Nat.mul_zero,
        Nat.zero_add]
      rfl
    have digit : c.toNat - '0'.toNat ≤ 9 := Nat.sub_le_sub_right (Char.isDigit_iff_toNat.mp first).2 _
    have place := Nat.mul_le_mul_left (Nat.pow 10 digits.length) digit
    have size : Nat.pow 10 (c :: digits).length = Nat.pow 10 digits.length * 10 := rfl
    omega

/-- A number has no more digits than those that it is read from. -/
theorem length_digitsOf_ofDigits_le {digits : Text} (all : IsDigits digits) (nonempty : digits ≠ []) :
    (digitsOf (ofDigits digits)).length ≤ digits.length :=
  (Nat.length_toDigits_le_iff (by decide) (List.length_pos_iff.mpr nonempty)).mpr (ofDigits_lt all)

theorem isDigits_of_wholePart? {text digits rest : Text}
    (found : wholePart? text = some (digits, rest)) : IsDigits digits ∧ digits ≠ [] := by
  cases text with
  | nil => exact absurd found nofun
  | cons c text =>
    rw [wholePart?] at found
    split_ifs at found with zero digit
    · obtain ⟨rfl, -⟩ := Prod.mk.inj (Option.some.inj found)
      exact ⟨isDigits_zeros 1, List.cons_ne_nil _ _⟩
    · obtain ⟨rfl, -⟩ := Prod.mk.inj (Option.some.inj found)
      exact ⟨List.forall_mem_cons.mpr ⟨digit, fun c => List.mem_takeWhile_imp⟩, List.cons_ne_nil _ _⟩

/-- The digits before the point of a number that is found in a text. -/
theorem isDigits_of_spelling? {text rest : Text} {spelling : Spelling}
    (found : spelling? text = some (spelling, rest)) :
    IsDigits spelling.whole ∧ spelling.whole ≠ [] := by
  obtain ⟨⟨whole, after⟩, first, same⟩ := Option.map_eq_some_iff.mp found
  obtain ⟨rfl, -⟩ := Prod.mk.inj same
  exact isDigits_of_wholePart? first

end Decimal

namespace Json

/-- Whether a value is like those that are read: no whole number in it has too many digits, it nests no
deeper than a limit, and no object in it has a key twice. -/
structure IsRead (limit : Nat) (value : Json) : Prop where
  short : value.HasShortNumbers
  shallow : value.depth ≤ limit
  settled : value.settle = value

theorem isRead_of_isScalar {value : Json} (scalar : value.IsScalar) (short : value.IsShort)
    (limit : Nat) : value.IsRead limit where
  short := (hasShortNumbers_iff_isShort scalar).mpr short
  shallow := by rw [depth_of_isScalar scalar]; exact limit.zero_le
  settled := settle_of_isScalar scalar

theorem isRead_array {limit : Nat} {items : List Json} (each : ∀ item ∈ items, item.IsRead limit) :
    (array items).IsRead (limit + 1) where
  short := (hasShortNumbers_array items).mpr fun item member => (each item member).short
  shallow := (depth_array_le_iff items limit).mpr fun item member => (each item member).shallow
  settled := by
    rw [settle, List.map_congr_left fun item member => (each item member).settled, List.map_id']

theorem isRead_object {limit : Nat} {entries : List (Units × Json)}
    (each : ∀ entry ∈ entries, entry.2.IsRead limit) :
    (object (Assoc.ofPairs entries)).IsRead (limit + 1) := by
  obtain ⟨read, distinct⟩ := Assoc.ofPairs_keeps each
  have same : ∀ entry ∈ Assoc.ofPairs entries, (entry.1, entry.2.settle) = entry :=
    fun entry member => Prod.ext rfl (read entry member).settled
  refine ⟨(hasShortNumbers_object _).mpr fun entry member => (read entry member).short,
    (depth_object_le_iff _ limit).mpr fun entry member => (read entry member).shallow, ?_⟩
  rw [settle, List.map_congr_left same, List.map_id', Assoc.ofPairs_of_nodup distinct]

/-- A spelled number is a scalar without too many digits. -/
theorem isShort_of_ofSpelling? {spelling : Decimal.Spelling} {value : Json}
    (digits : Decimal.IsDigits spelling.whole) (filled : spelling.whole ≠ [])
    (known : ofSpelling? spelling = some value) : value.IsScalar ∧ value.IsShort := by
  rw [ofSpelling?] at known
  have count := Decimal.length_digitsOf_ofDigits_le digits filled
  split_ifs at known with whole few negative
  · obtain rfl := Option.some.inj known
    refine ⟨trivial, decide_eq_true ?_⟩
    rw [Int.natAbs_neg]
    exact Nat.le_trans count few
  · obtain rfl := Option.some.inj known
    exact ⟨trivial, decide_eq_true (Nat.le_trans count few)⟩
  · obtain rfl := Option.some.inj known
    exact ⟨trivial, trivial⟩

theorem isRead_of_readScalar? {text rest : Text} {value : Json}
    (read : readScalar? text = some (value, rest)) (limit : Nat) : value.IsRead limit := by
  suffices value.IsScalar ∧ value.IsShort from isRead_of_isScalar this.1 this.2 limit
  rw [readScalar?.eq_def] at read
  split at read
  · obtain ⟨⟨units, after⟩, -, same⟩ := Option.map_eq_some_iff.mp read
    obtain ⟨rfl, -⟩ := Prod.mk.inj same
    exact ⟨trivial, trivial⟩
  · rcases Option.or_eq_some_iff.mp read with word | ⟨-, number⟩
    · obtain ⟨entry, found, same⟩ := Option.map_eq_some_iff.mp word
      obtain ⟨rfl, -⟩ := Prod.mk.inj same
      have plain : ∀ entry ∈ words, entry.2.IsScalar ∧ entry.2.IsShort := by
        simp [words, IsScalar, IsShort]
      exact plain entry (List.mem_of_find?_eq_some found)
    · rw [readNumber?] at number
      split at number
      · rename_i spelling after found
        obtain ⟨known, given, same⟩ := Option.map_eq_some_iff.mp number
        obtain ⟨rfl, -⟩ := Prod.mk.inj same
        obtain ⟨digits, filled⟩ := Decimal.isDigits_of_spelling? found
        exact isShort_of_ofSpelling? digits filled given
      · exact absurd number.symm (Option.some_ne_none _)

section Containers

variable {readValue? : Text → Option (Json × Text)} {property : Json → Prop}
  (reads : ∀ text value rest, readValue? text = some (value, rest) → property value)
include reads

theorem forall_mem_of_readItems? {count : Nat} {text rest : Text} {items : List Json}
    (read : readItems? readValue? count text = some (items, rest)) :
    ∀ item ∈ items, property item := by
  induction count generalizing text items with
  | zero => exact absurd read nofun
  | succ count ih =>
    rw [readItems?] at read
    split at read
    · exact absurd read nofun
    · rename_i item after first
      have holds := reads _ _ _ first
      split at read
      · obtain ⟨rfl, -⟩ := Prod.mk.inj (Option.some.inj read)
        exact List.forall_mem_singleton.mpr holds
      · obtain ⟨⟨more, remaining⟩, others, same⟩ := Option.map_eq_some_iff.mp read
        obtain ⟨rfl, rfl⟩ := Prod.mk.inj same
        exact List.forall_mem_cons.mpr ⟨holds, ih others⟩
      · exact absurd read nofun

theorem of_readMember? {text rest : Text} {entry : Units × Json}
    (read : readMember? readValue? text = some (entry, rest)) : property entry.2 := by
  rw [readMember?.eq_def] at read
  split at read
  · split at read
    · exact absurd read nofun
    · split at read
      · obtain ⟨⟨value, after⟩, found, same⟩ := Option.map_eq_some_iff.mp read
        obtain ⟨rfl, -⟩ := Prod.mk.inj same
        exact reads _ _ _ found
      · exact absurd read nofun
  · exact absurd read nofun

theorem forall_mem_of_readMembers? {count : Nat} {text rest : Text} {entries : List (Units × Json)}
    (read : readMembers? readValue? count text = some (entries, rest)) :
    ∀ entry ∈ entries, property entry.2 := by
  induction count generalizing text entries with
  | zero => exact absurd read nofun
  | succ count ih =>
    rw [readMembers?] at read
    split at read
    · exact absurd read nofun
    · rename_i entry after first
      have holds := of_readMember? reads first
      split at read
      · obtain ⟨rfl, -⟩ := Prod.mk.inj (Option.some.inj read)
        exact List.forall_mem_singleton.mpr holds
      · obtain ⟨⟨more, remaining⟩, others, same⟩ := Option.map_eq_some_iff.mp read
        obtain ⟨rfl, rfl⟩ := Prod.mk.inj same
        exact List.forall_mem_cons.mpr ⟨holds, ih others⟩
      · exact absurd read nofun

end Containers

theorem isRead_of_readValue? {limit : Nat} {text rest : Text} {value : Json}
    (read : readValue? limit text = some (value, rest)) : value.IsRead limit := by
  induction limit generalizing text rest value with
  | zero => exact isRead_of_readScalar? read 0
  | succ limit ih =>
    have inner : ∀ text value rest, readValue? limit text = some (value, rest) →
        value.IsRead limit := fun _ _ _ => ih
    rw [readValue?.eq_def] at read
    dsimp only at read
    split at read
    · split at read
      · obtain ⟨rfl, -⟩ := Prod.mk.inj (Option.some.inj read)
        exact isRead_array (List.forall_mem_nil _)
      · obtain ⟨⟨items, after⟩, found, same⟩ := Option.map_eq_some_iff.mp read
        obtain ⟨rfl, -⟩ := Prod.mk.inj same
        exact isRead_array (forall_mem_of_readItems? inner found)
    · split at read
      · obtain ⟨rfl, -⟩ := Prod.mk.inj (Option.some.inj read)
        exact @isRead_object limit [] (List.forall_mem_nil _)
      · obtain ⟨⟨entries, after⟩, found, same⟩ := Option.map_eq_some_iff.mp read
        obtain ⟨rfl, -⟩ := Prod.mk.inj same
        exact isRead_object (forall_mem_of_readMembers? inner found)
    · exact isRead_of_readScalar? read (limit + 1)

/-- Whatever is read is like that up to the limit of the reader. -/
theorem isRead_of_parse? {text : Text} {value : Json} (read : parse? text = some value) :
    value.IsRead nestingLimit := by
  rw [parse?] at read
  split at read
  · rename_i found
    obtain ⟨-, same⟩ := Option.ite_none_right_eq_some.mp read
    obtain rfl := Option.some.inj same
    exact isRead_of_readValue? found
  · exact absurd read nofun

end Json

end KotlinHighlight
