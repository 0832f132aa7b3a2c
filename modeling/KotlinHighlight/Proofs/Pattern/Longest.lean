import Mathlib.Order.Bounds.Defs
import KotlinHighlight.Proofs.Pattern.Language
import KotlinHighlight.Proofs.Pattern.Stretches

/-! # When the preferred end is the furthest

A pattern prefers the first of its ends, which need not be the furthest. It is if the ends come in
descending order (`matchEnd?_eq_some_iff_isGreatest`). That carries over to one pattern after another
where whatever the first one can give back is nothing that the second one takes (`Descending.both`):
then a shorter choice for the first leads no further than a longer one.
-/

namespace KotlinHighlight

namespace Pattern

/-- Whether the ends of a pattern come one before the other, from the furthest to the nearest. -/
def Descending (pattern : Pattern) : Prop :=
  ∀ cursor, (pattern.ends cursor).Pairwise fun earlier later => later.position < earlier.position

/-- Whether a pattern takes nothing where a character of a class is next. -/
def Shuns (accepts : Char → Bool) (pattern : Pattern) : Prop :=
  ∀ cursor, cursor.ahead.head?.any accepts = true → ∀ last ∈ pattern.ends cursor, last = cursor

/-- If the ends descend, no end is further than the first one. -/
theorem Descending.position_le {pattern : Pattern} (descending : pattern.Descending)
    {cursor first : Cursor} (preferred : (pattern.ends cursor).head? = some first) {other : Cursor}
    (member : other ∈ pattern.ends cursor) : other.position ≤ first.position := by
  have ordered := descending cursor
  obtain ⟨others, listed⟩ := List.head?_eq_some_iff.mp preferred
  rw [listed] at member ordered
  rcases List.mem_cons.mp member with rfl | later
  · exact Nat.le_refl _
  · exact Nat.le_of_lt ((List.pairwise_cons.mp ordered).1 other later)

/-- If the ends descend, a match goes as far as any. -/
theorem matchEnd?_of_descending {pattern : Pattern} (descending : pattern.Descending)
    {cursor last : Cursor} (found : last ∈ pattern.ends cursor)
    (furthest : ∀ other ∈ pattern.ends cursor, other.position ≤ last.position) :
    pattern.matchEnd? cursor = some last.position := by
  obtain ⟨first, others, listed⟩ := List.exists_cons_of_ne_nil (List.ne_nil_of_mem found)
  have preferred : (pattern.ends cursor).head? = some first := by rw [listed, List.head?_cons]
  have nearer := descending.position_le preferred found
  have further := furthest first (List.mem_of_mem_head? preferred)
  rw [matchEnd?, preferred, Option.map_some, Nat.le_antisymm further nearer]

/-- If the ends descend, the match is the furthest of them and no other. -/
theorem matchEnd?_eq_some_iff_isGreatest {pattern : Pattern} (descending : pattern.Descending)
    {cursor : Cursor} {stop : Nat} :
    pattern.matchEnd? cursor = some stop ↔
      IsGreatest {place | ∃ last ∈ pattern.ends cursor, last.position = place} stop := by
  constructor
  · intro found
    obtain ⟨first, preferred, rfl⟩ := Option.map_eq_some_iff.mp found
    refine ⟨⟨first, List.mem_of_mem_head? preferred, rfl⟩, ?_⟩
    rintro _ ⟨other, member, rfl⟩
    exact descending.position_le preferred member
  · rintro ⟨⟨last, found, rfl⟩, furthest⟩
    exact matchEnd?_of_descending descending found fun other member =>
      furthest ⟨other, member, rfl⟩

theorem opens_one (accepts : Char → Bool) : (one accepts).Opens accepts := by
  intro cursor last member
  obtain ⟨c, accepted, reads⟩ := mem_ends_one.mp member
  rw [reads.ahead]
  exact accepted

theorem Opens.either {accepts : Char → Bool} {first second : Pattern} (one : first.Opens accepts)
    (other : second.Opens accepts) : (either first second).Opens accepts := by
  intro cursor last member
  rcases mem_ends_either.mp member with here | there
  · exact one cursor last here
  · exact other cursor last there

/-- What starts with a character of one class has no end where one of another class is next. -/
theorem Opens.not_mem {accepts others : Char → Bool} {pattern : Pattern}
    (opens : pattern.Opens others) (disjoint : ∀ c, accepts c = true → others c = false)
    {cursor : Cursor} (next : cursor.ahead.head?.any accepts = true) (last : Cursor) :
    last ∉ pattern.ends cursor := by
  intro member
  have head := opens cursor last member
  cases ahead : cursor.ahead.head? with
  | none =>
    rw [ahead] at head
    exact absurd head Bool.false_ne_true
  | some c =>
    rw [ahead] at head next
    exact absurd ((disjoint c next).symm.trans head) Bool.false_ne_true

section Shuns

variable {accepts : Char → Bool}

theorem Opens.shuns {others : Char → Bool} {pattern : Pattern} (opens : pattern.Opens others)
    (disjoint : ∀ c, accepts c = true → others c = false) : pattern.Shuns accepts :=
  fun _ next last member => absurd member (opens.not_mem disjoint next last)

theorem Opens.shuns_optional {others : Char → Bool} {body : Pattern} (opens : body.Opens others)
    (disjoint : ∀ c, accepts c = true → others c = false) : (optional body).Shuns accepts :=
  fun _ next last member =>
    (mem_ends_optional.mp member).resolve_left (opens.not_mem disjoint next last)

theorem Shuns.both {first second : Pattern} (one : first.Shuns accepts)
    (other : second.Shuns accepts) : (both first second).Shuns accepts := by
  intro cursor next last member
  obtain ⟨middle, here, later⟩ := mem_ends_both.mp member
  obtain rfl := one cursor next middle here
  exact other middle next last later

end Shuns

theorem Advances.both {first : Pattern} (advances : first.Advances) (second : Pattern) :
    (both first second).Advances := by
  intro cursor last member
  obtain ⟨middle, here, later⟩ := mem_ends_both.mp member
  have moved := advances cursor middle here
  have further := (second.reaches_of_mem_ends later).position_add_length.2
  omega

theorem Advances.after {second : Pattern} (advances : second.Advances) (first : Pattern) :
    (Pattern.both first second).Advances := by
  intro cursor last member
  obtain ⟨middle, here, later⟩ := mem_ends_both.mp member
  have further := (first.reaches_of_mem_ends here).position_add_length.2
  have moved := advances middle last later
  omega

theorem Advances.either {first second : Pattern} (one : first.Advances)
    (other : second.Advances) : (either first second).Advances := by
  intro cursor last member
  rcases mem_ends_either.mp member with here | there
  · exact one cursor last here
  · exact other cursor last there

/-- A character of a class has one end or none. -/
theorem ends_one_cases (accepts : Char → Bool) (cursor : Cursor) :
    (one accepts).ends cursor = [] ∨ ∃ next, (one accepts).ends cursor = [next] ∧
      next.position = cursor.position + 1 := by
  obtain ⟨position, before, ahead⟩ := cursor
  cases ahead with
  | nil => exact .inl rfl
  | cons c rest =>
    rw [ends]
    split
    · exact .inr ⟨_, rfl, rfl⟩
    · exact .inl rfl

theorem descending_one (accepts : Char → Bool) : (one accepts).Descending := by
  intro cursor
  rcases ends_one_cases accepts cursor with stuck | ⟨next, single, -⟩
  · rw [stuck]
    exact List.Pairwise.nil
  · rw [single]
    exact List.pairwise_singleton _ _

/-- What comes after one character descends as it does alone. -/
theorem Descending.after_one {second : Pattern} (descending : second.Descending)
    (accepts : Char → Bool) : (both (one accepts) second).Descending := by
  intro cursor
  rw [ends]
  rcases ends_one_cases accepts cursor with stuck | ⟨next, single, -⟩
  · rw [stuck]
    exact List.Pairwise.nil
  · rw [single, List.flatMap_singleton]
    exact descending next

theorem Descending.before_one {first : Pattern} (descending : first.Descending)
    (accepts : Char → Bool) : (both first (one accepts)).Descending := by
  intro cursor
  have next : ∀ middle, ∀ last ∈ (one accepts).ends middle, last.position = middle.position + 1 := by
    intro middle last member
    obtain ⟨c, -, reads⟩ := mem_ends_one.mp member
    exact reads.position
  rw [ends, List.pairwise_flatMap]
  refine ⟨fun middle _ => descending_one accepts middle, ?_⟩
  refine (descending cursor).imp fun {earlier later} nearer x one y other => ?_
  rw [next earlier x one, next later y other]
  omega

theorem Descending.optional {body : Pattern} (descending : body.Descending)
    (advances : body.Advances) : (optional body).Descending := by
  intro cursor
  rw [Pattern.optional, ends, List.pairwise_append]
  refine ⟨descending cursor, List.pairwise_singleton _ _, fun earlier member later here => ?_⟩
  obtain rfl := List.mem_singleton.mp here
  exact advances later earlier member

/-- A greedy repetition of one class tries the longest first. -/
theorem descending_many_one (accepts : Char → Bool) : (many (one accepts)).Descending := by
  intro cursor
  rw [ends]
  generalize cursor.ahead.length = count
  induction count generalizing cursor with
  | zero => exact List.pairwise_singleton _ _
  | succ count ih =>
    rw [manySteps]
    rcases ends_one_cases accepts cursor with stuck | ⟨next, single, moved⟩
    · rw [stuck]
      exact List.pairwise_singleton _ _
    · rw [single, List.foldr_cons, List.foldr_nil, manySteps_eq_append, List.pairwise_append]
      refine ⟨ih next, List.pairwise_singleton _ _, fun earlier member later here => ?_⟩
      obtain rfl := List.mem_singleton.mp here
      have further := (reaches_of_mem_manySteps
        (fun _ _ => reaches_of_mem_ends (one accepts)) member).position_add_length.2
      omega

/-- A nearer end is followed by a character that was taken on the way to a further one. -/
theorem next_of_nearer {accepts : Char → Bool} {pattern : Pattern} (within : pattern.Within accepts)
    {cursor further nearer : Cursor} (one : further ∈ pattern.ends cursor)
    (other : nearer ∈ pattern.ends cursor) (before : nearer.position < further.position) :
    nearer.ahead.head?.any accepts = true := by
  obtain ⟨text, reads, all⟩ := reads_of_mem_ends within one
  obtain ⟨start, readsStart, -⟩ := reads_of_mem_ends within other
  have shorter : start.length < text.length := by
    rw [reads.position, readsStart.position] at before
    omega
  have whole := reads.ahead
  rw [readsStart.ahead] at whole
  have next : nearer.ahead.head? = text[start.length]? := by
    have moved := congrArg (·[start.length]?) whole
    simp only [List.getElem?_append_right (Nat.le_refl _), Nat.sub_self,
      List.getElem?_append_left shorter] at moved
    rw [← moved, List.head?_eq_getElem?]
  rw [next, List.getElem?_eq_getElem shorter, Option.any_some]
  exact all _ (List.getElem_mem shorter)

/-- If the second pattern takes nothing of what the first one can give back, a shorter choice for the
first leads less far. -/
theorem Descending.both {accepts : Char → Bool} {first second : Pattern}
    (one : first.Descending) (within : first.Within accepts) (other : second.Descending)
    (shuns : second.Shuns accepts) : (both first second).Descending := by
  intro cursor
  rw [ends, List.pairwise_flatMap]
  refine ⟨fun middle _ => other middle, ?_⟩
  refine (one cursor).imp_of_mem fun {further nearer} here there before x fromFurther y fromNearer => ?_
  have next := next_of_nearer within here there before
  obtain rfl := shuns nearer next y fromNearer
  have moved := (second.reaches_of_mem_ends fromFurther).position_add_length.2
  omega

/-- Of two alternatives that never have ends at the same place each is as good as alone. -/
theorem Descending.either {first second : Pattern} (one : first.Descending)
    (other : second.Descending) (apart : ∀ cursor, ∀ x ∈ first.ends cursor, second.ends cursor = []) :
    (either first second).Descending := by
  intro cursor
  rw [ends, List.pairwise_append]
  refine ⟨one cursor, other cursor, fun x here y there => ?_⟩
  rw [apart cursor x here] at there
  exact absurd there List.not_mem_nil

/-- Between boundaries the ends keep their order. -/
theorem Descending.between {part : Pattern} {parts : List Pattern}
    (descending : (sequence (part :: parts)).Descending) :
    (sequence (boundary :: part :: parts ++ [boundary])).Descending := by
  intro cursor
  rw [ends_between]
  split
  · exact (descending cursor).filter _
  · exact List.Pairwise.nil

/-- Alternatives that start with different characters never have ends at the same place. -/
theorem Opens.apart {accepts others : Char → Bool} {first second : Pattern}
    (one : first.Opens accepts) (other : second.Opens others)
    (disjoint : ∀ c, accepts c = true → others c = false) (cursor : Cursor) :
    ∀ x ∈ first.ends cursor, second.ends cursor = [] := by
  intro x member
  rw [List.eq_nil_iff_forall_not_mem]
  exact other.not_mem disjoint (one cursor x member)

end Pattern

end KotlinHighlight
