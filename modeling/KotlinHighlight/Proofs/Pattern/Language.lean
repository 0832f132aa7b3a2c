import KotlinHighlight.Proofs.Pattern.Run

/-! # The texts that a pattern takes

Which texts a pattern takes, without regard to the order in which it tries them: a pattern made of
others takes what they take, put together (`Takes.both`, `Takes.optional`, `takes_many_one`). A
boundary takes nothing, and drops the ends that are at none (`ends_between`,
`Takes.mem_ends_between`).
-/

namespace KotlinHighlight

namespace Cursor

/-- What is read at once can be read in two parts. -/
theorem Reads.split {first last : Cursor} {text more : Text}
    (reads : first.Reads (text ++ more) last) :
    ∃ middle, first.Reads text middle ∧ middle.Reads more last := by
  refine ⟨⟨first.position + text.length, text.getLast?.or first.before, more ++ last.ahead⟩,
    ⟨?_, rfl, rfl⟩, rfl, ?_, ?_⟩
  · rw [reads.ahead, List.append_assoc]
  · rw [reads.position, List.length_append, Nat.add_assoc]
  · rw [reads.before, List.getLast?_append, Option.or_assoc]

theorem Reads.unique {first last other : Cursor} {text : Text} (one : first.Reads text last)
    (another : first.Reads text other) : last = other := by
  obtain ⟨place, before, ahead⟩ := last
  obtain ⟨place', before', ahead'⟩ := other
  simp only [Cursor.mk.injEq]
  refine ⟨?_, ?_, ?_⟩
  · exact one.position.trans another.position.symm
  · exact one.before.trans another.before.symm
  · exact List.append_cancel_left (one.ahead.symm.trans another.ahead)

/-- Of two texts that are read from the same place the shorter one is the start of the longer one. -/
theorem Reads.prefix_of_le {first last other : Cursor} {text more : Text}
    (one : first.Reads text last) (another : first.Reads more other)
    (shorter : text.length ≤ more.length) : text <+: more := by
  have starts : text <+: first.ahead := ⟨last.ahead, one.ahead.symm⟩
  have startsLonger : more <+: first.ahead := ⟨other.ahead, another.ahead.symm⟩
  exact List.prefix_of_prefix_length_le starts startsLonger shorter

end Cursor

namespace Pattern

/-- Whether a pattern takes exactly the texts with a property, wherever they stand. -/
def Takes (pattern : Pattern) (good : Text → Prop) : Prop :=
  ∀ cursor last, last ∈ pattern.ends cursor ↔ ∃ text, good text ∧ cursor.Reads text last

theorem Takes.congr {pattern : Pattern} {good other : Text → Prop} (takes : pattern.Takes good)
    (same : ∀ text, good text ↔ other text) : pattern.Takes other := by
  intro cursor last
  simp only [takes cursor last, same]

theorem takes_one (accepts : Char → Bool) :
    (one accepts).Takes fun text => ∃ c, accepts c = true ∧ text = [c] := by
  intro cursor last
  rw [mem_ends_one]
  constructor
  · rintro ⟨c, accepted, reads⟩
    exact ⟨[c], ⟨c, accepted, rfl⟩, reads⟩
  · rintro ⟨_, ⟨c, accepted, rfl⟩, reads⟩
    exact ⟨c, accepted, reads⟩

/-- One pattern after another takes a text of the one and a text of the other. -/
theorem Takes.both {first second : Pattern} {good other : Text → Prop} (one : first.Takes good)
    (another : second.Takes other) : (both first second).Takes fun text =>
      ∃ start, good start ∧ ∃ rest, other rest ∧ text = start ++ rest := by
  intro cursor last
  rw [mem_ends_both]
  constructor
  · rintro ⟨middle, here, later⟩
    obtain ⟨start, goodStart, reads⟩ := (one cursor middle).mp here
    obtain ⟨rest, goodRest, readsRest⟩ := (another middle last).mp later
    exact ⟨start ++ rest, ⟨start, goodStart, rest, goodRest, rfl⟩, reads.trans readsRest⟩
  · rintro ⟨_, ⟨start, goodStart, rest, goodRest, rfl⟩, reads⟩
    obtain ⟨middle, readsStart, readsRest⟩ := reads.split
    exact ⟨middle, (one cursor middle).mpr ⟨start, goodStart, readsStart⟩,
      (another middle last).mpr ⟨rest, goodRest, readsRest⟩⟩

theorem Takes.either {first second : Pattern} {good other : Text → Prop} (one : first.Takes good)
    (another : second.Takes other) :
    (either first second).Takes fun text => good text ∨ other text := by
  intro cursor last
  rw [mem_ends_either, one cursor last, another cursor last]
  simp only [or_and_right, exists_or]

theorem takes_empty : empty.Takes (· = []) := by
  intro cursor last
  rw [ends, List.mem_singleton]
  constructor
  · rintro rfl
    exact ⟨[], rfl, .refl _⟩
  · rintro ⟨_, rfl, reads⟩
    exact reads.unique (.refl cursor)

theorem Takes.optional {body : Pattern} {good : Text → Prop} (takes : body.Takes good) :
    (optional body).Takes fun text => good text ∨ text = [] :=
  takes.either takes_empty

/-- Characters of a class are taken by a greedy repetition with room for them. -/
theorem mem_manySteps_of_reads {accepts : Char → Bool} {text : Text} {count : Nat}
    {cursor last : Cursor} (reads : cursor.Reads text last) (all : ∀ c ∈ text, accepts c = true)
    (room : text.length ≤ count) : last ∈ manySteps (one accepts).ends count cursor [] := by
  induction text generalizing cursor count with
  | nil =>
    obtain rfl := reads.unique (.refl cursor)
    cases count with
    | zero => exact List.mem_singleton_self _
    | succ count => exact mem_manySteps_succ.mpr (.inr rfl)
  | cons c rest ih =>
    rw [List.forall_mem_cons] at all
    obtain ⟨more, rfl⟩ : ∃ more, count = more + 1 :=
      Nat.exists_eq_add_one_of_ne_zero (Nat.ne_of_gt (Nat.lt_of_lt_of_le (Nat.succ_pos _) room))
    have whole : cursor.Reads ([c] ++ rest) last := reads
    obtain ⟨next, first, later⟩ := whole.split
    exact mem_manySteps_succ.mpr (.inl ⟨next, mem_ends_one.mpr ⟨c, all.1, first⟩,
      ih later all.2 (Nat.le_of_succ_le_succ room)⟩)

theorem takes_many_one (accepts : Char → Bool) :
    (many (one accepts)).Takes fun text => ∀ c ∈ text, accepts c = true := by
  intro cursor last
  constructor
  · intro member
    have append : ∀ text more : Text, (∀ c ∈ text, accepts c = true) →
        (∀ c ∈ more, accepts c = true) → ∀ c ∈ text ++ more, accepts c = true :=
      fun _ _ inText inMore => List.forall_mem_append.mpr ⟨inText, inMore⟩
    obtain ⟨text, reads, all⟩ := reads_of_mem_manySteps (List.forall_mem_nil _) append
      (fun cursor next stepped => by
        obtain ⟨c, accepted, reads⟩ := mem_ends_one.mp stepped
        exact ⟨[c], reads, List.forall_mem_singleton.mpr accepted⟩) member
    exact ⟨text, all, reads⟩
  · rintro ⟨text, all, reads⟩
    refine mem_manySteps_of_reads reads all ?_
    rw [reads.ahead, List.length_append]
    exact Nat.le_add_right _ _

/-- A boundary at the end of a sequence keeps the ends that are at one. -/
theorem ends_sequence_concat_boundary (parts : List Pattern) (cursor : Cursor) :
    (sequence (parts ++ [boundary])).ends cursor =
      ((sequence parts).ends cursor).filter (·.atBoundary) := by
  have filtered : ∀ found : List Cursor,
      found.flatMap boundary.ends = found.filter (·.atBoundary) := by
    intro found
    induction found with
    | nil => rfl
    | cons first others ih =>
      rw [List.flatMap_cons, ih, ends, List.filter_cons]
      split
      · rfl
      · rfl
  induction parts generalizing cursor with
  | nil =>
    have alone := filtered [cursor]
    rwa [List.flatMap_singleton] at alone
  | cons first others ih =>
    cases others with
    | nil => exact filtered (first.ends cursor)
    | cons second rest =>
      change (first.ends cursor).flatMap (sequence (second :: rest ++ [boundary])).ends =
        ((first.ends cursor).flatMap (sequence (second :: rest)).ends).filter (·.atBoundary)
      rw [List.filter_flatMap]
      exact List.flatMap_congr fun middle _ => ih middle

/-- Between boundaries stand the ends of what is between, from a boundary and at a boundary. -/
theorem ends_between (part : Pattern) (parts : List Pattern) (cursor : Cursor) :
    (sequence (boundary :: part :: parts ++ [boundary])).ends cursor =
      if cursor.atBoundary then ((sequence (part :: parts)).ends cursor).filter (·.atBoundary)
      else [] := by
  change (boundary.ends cursor).flatMap (sequence (part :: parts ++ [boundary])).ends = _
  rw [ends]
  split
  · rw [List.flatMap_singleton, ends_sequence_concat_boundary]
  · rfl

/-- Between boundaries is taken what is taken without them, if it starts and stops at one. -/
theorem Takes.mem_ends_between {part : Pattern} {parts : List Pattern} {good : Text → Prop}
    (takes : (sequence (part :: parts)).Takes good) (cursor last : Cursor) :
    last ∈ (sequence (boundary :: part :: parts ++ [boundary])).ends cursor ↔
      ∃ text, good text ∧ cursor.Reads text last ∧ cursor.atBoundary = true ∧
        last.atBoundary = true := by
  rw [ends_between, List.mem_ite_nil_right, List.mem_filter, takes cursor last]
  constructor
  · rintro ⟨starts, ⟨text, goodText, reads⟩, stops⟩
    exact ⟨text, goodText, reads, starts, stops⟩
  · rintro ⟨text, goodText, reads, starts, stops⟩
    exact ⟨starts, ⟨text, goodText, reads⟩, stops⟩

end Pattern

end KotlinHighlight
