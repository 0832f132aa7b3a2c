import KotlinHighlight.Pattern

/-! # Where patterns end

A pattern ends further on in the same text, so a match is a stretch of that text. The two
repetitions have the same ends, in another order.
-/

namespace KotlinHighlight

namespace Cursor

def advance : Nat → Cursor → Cursor
  | 0, cursor => cursor
  | count + 1, ⟨position, before, ahead⟩ =>
    match ahead with
    | [] => ⟨position, before, []⟩
    | c :: rest => advance count ⟨position + 1, some c, rest⟩

/-- A cursor is reached from another by going on in the same text. -/
def Reaches (first last : Cursor) : Prop :=
  ∃ count, count ≤ first.ahead.length ∧ last = first.advance count

theorem Reaches.refl (cursor : Cursor) : cursor.Reaches cursor :=
  ⟨0, Nat.zero_le _, rfl⟩

theorem Reaches.trans {first second third : Cursor} (one : first.Reaches second)
    (other : second.Reaches third) : first.Reaches third := by
  obtain ⟨count, within, rfl⟩ := one
  induction count generalizing first with
  | zero => exact other
  | succ count ih =>
    obtain ⟨position, before, ahead⟩ := first
    cases ahead with
    | nil => simp at within
    | cons c rest =>
      simp only [List.length_cons] at within
      obtain ⟨more, bound, same⟩ := @ih ⟨position + 1, some c, rest⟩ (by simpa using within) other
      exact ⟨more + 1, by simpa using bound, by simpa [advance] using same⟩

theorem Reaches.position_add_length {first last : Cursor} (reached : first.Reaches last) :
    last.position + last.ahead.length = first.position + first.ahead.length ∧
      first.position ≤ last.position := by
  obtain ⟨count, within, rfl⟩ := reached
  induction count generalizing first with
  | zero => simp [advance]
  | succ count ih =>
    obtain ⟨position, before, ahead⟩ := first
    cases ahead with
    | nil => simp at within
    | cons c rest =>
      simp only [List.length_cons] at within
      have next := @ih ⟨position + 1, some c, rest⟩ (by simpa using within)
      simp only [advance, List.length_cons] at next ⊢
      omega

end Cursor

namespace Pattern

/-- What comes later does not change the ends of a greedy repetition. -/
theorem manySteps_eq_append (step : Cursor → List Cursor) (count : Nat) (cursor : Cursor)
    (later : List Cursor) :
    manySteps step count cursor later = manySteps step count cursor [] ++ later := by
  induction count generalizing cursor later with
  | zero => rfl
  | succ count ih =>
    simp only [manySteps]
    induction step cursor with
    | nil => rfl
    | cons next others more =>
      rw [List.foldr_cons, List.foldr_cons, ih, more, ih next (List.foldr _ _ _), List.append_assoc]

/-- What comes later does not change the ends of a reluctant repetition. -/
theorem fewSteps_eq_append (step : Cursor → List Cursor) (count : Nat) (cursor : Cursor)
    (later : List Cursor) :
    fewSteps step count cursor later = fewSteps step count cursor [] ++ later := by
  induction count generalizing cursor later with
  | zero => rfl
  | succ count ih =>
    simp only [fewSteps, List.cons_append, List.cons.injEq, true_and]
    induction step cursor with
    | nil => rfl
    | cons next others more =>
      rw [List.foldr_cons, List.foldr_cons, ih, more, ih next (List.foldr _ _ _), List.append_assoc]

/-- The ends of a greedy repetition: those of one step and further steps, and the start itself. -/
theorem mem_manySteps_succ {step : Cursor → List Cursor} {count : Nat} {cursor last : Cursor} :
    last ∈ manySteps step (count + 1) cursor [] ↔
      (∃ next ∈ step cursor, last ∈ manySteps step count next []) ∨ last = cursor := by
  simp only [manySteps]
  induction step cursor with
  | nil => simp
  | cons next others more =>
    rw [List.foldr_cons, manySteps_eq_append, List.mem_append, more]
    simp [or_assoc]

/-- The ends of a reluctant repetition are those of a greedy one, in another order. -/
theorem mem_fewSteps_iff {step : Cursor → List Cursor} {count : Nat} {cursor last : Cursor} :
    last ∈ fewSteps step count cursor [] ↔ last ∈ manySteps step count cursor [] := by
  induction count generalizing cursor with
  | zero => rfl
  | succ count ih =>
    rw [mem_manySteps_succ]
    simp only [fewSteps, List.mem_cons]
    induction step cursor with
    | nil => simp
    | cons next others more =>
      rw [List.foldr_cons, fewSteps_eq_append, List.mem_append, ih]
      simp only [List.mem_cons, exists_eq_or_imp]
      grind

theorem reaches_of_mem_manySteps {step : Cursor → List Cursor}
    (forward : ∀ cursor, ∀ next ∈ step cursor, cursor.Reaches next) {count : Nat}
    {cursor last : Cursor} (member : last ∈ manySteps step count cursor []) :
    cursor.Reaches last := by
  induction count generalizing cursor with
  | zero =>
    simp only [manySteps, List.mem_singleton] at member
    exact member ▸ .refl cursor
  | succ count ih =>
    rcases mem_manySteps_succ.mp member with ⟨next, stepped, rest⟩ | rfl
    · exact (forward cursor next stepped).trans (ih rest)
    · exact .refl _

/-- A pattern ends further on in the same text. -/
theorem reaches_of_mem_ends (pattern : Pattern) {cursor last : Cursor}
    (member : last ∈ pattern.ends cursor) : cursor.Reaches last := by
  induction pattern generalizing cursor last with
  | empty =>
    simp only [ends, List.mem_singleton] at member
    exact member ▸ .refl cursor
  | one accepts =>
    obtain ⟨position, before, ahead⟩ := cursor
    cases ahead with
    | nil => simp [ends] at member
    | cons c rest =>
      simp only [ends, List.mem_ite_nil_right, List.mem_singleton] at member
      exact ⟨1, by simp, by simp [Cursor.advance, member.2]⟩
  | both first second ihFirst ihSecond =>
    obtain ⟨middle, one, other⟩ := List.mem_flatMap.mp member
    exact (ihFirst one).trans (ihSecond other)
  | either first second ihFirst ihSecond =>
    exact (List.mem_append.mp member).elim ihFirst ihSecond
  | many body ih => exact reaches_of_mem_manySteps (fun _ _ => ih) member
  | few body ih => exact reaches_of_mem_manySteps (fun _ _ => ih) (mem_fewSteps_iff.mp member)
  | boundary =>
    simp only [ends, List.mem_ite_nil_right, List.mem_singleton] at member
    exact member.2 ▸ .refl cursor

end Pattern

end KotlinHighlight
