/-! # Counting the keys up to a bound

Increasing keys are searched by halving: `upperBound keys bound` is the number of keys that are at
most `bound`, which is also the first index whose key exceeds it (`lt_upperBound_iff`).
-/

namespace KotlinHighlight.Sorted

/-- The first index in `[low, high)` whose key exceeds `bound`, and `high` if there is none. -/
def upperBoundIn (keys : Array Nat) (bound : Int) (low high : Nat) : Nat :=
  if low < high then
    let middle := (low + high) / 2
    if bound < keys.getD middle 0 then upperBoundIn keys bound low middle
    else upperBoundIn keys bound (middle + 1) high
  else low
termination_by high - low
decreasing_by all_goals omega

/-- The number of keys that are at most `bound`, for increasing keys. -/
def upperBound (keys : Array Nat) (bound : Int) : Nat :=
  upperBoundIn keys bound 0 keys.size

theorem upperBoundIn_mem (keys : Array Nat) (bound : Int) (low high : Nat) (ordered : low ≤ high) :
    low ≤ upperBoundIn keys bound low high ∧ upperBoundIn keys bound low high ≤ high := by
  fun_induction upperBoundIn keys bound low high with
  | case1 low high unfinished middle below ih => have := ih (by omega); omega
  | case2 low high unfinished middle above ih => have := ih (by omega); omega
  | case3 low high closed => omega

theorem upperBound_le_size (keys : Array Nat) (bound : Int) : upperBound keys bound ≤ keys.size :=
  (upperBoundIn_mem keys bound 0 keys.size (Nat.zero_le _)).2

/-- Keys that do not decrease from one index to a later one. -/
def Increasing (keys : Array Nat) : Prop :=
  ∀ first second, first ≤ second → second < keys.size → keys.getD first 0 ≤ keys.getD second 0

/-- If the keys before `low` are at most the bound and those from `high` on exceed it, the search
ends where the first key exceeds it. -/
theorem lt_upperBoundIn_iff {keys : Array Nat} (increasing : Increasing keys) {bound : Int}
    {low high : Nat} (ordered : low ≤ high) (within : high ≤ keys.size)
    (below : ∀ index < low, (keys.getD index 0 : Int) ≤ bound)
    (above : ∀ index, high ≤ index → index < keys.size → bound < (keys.getD index 0 : Int))
    {index : Nat} (valid : index < keys.size) :
    index < upperBoundIn keys bound low high ↔ (keys.getD index 0 : Int) ≤ bound := by
  fun_induction upperBoundIn keys bound low high with
  | case1 low high unfinished middle exceeds ih =>
    refine ih (by omega) (by omega) below fun later atLeast inside => ?_
    have := increasing middle later atLeast inside
    omega
  | case2 low high unfinished middle reaches ih =>
    refine ih (by omega) within (fun earlier before => ?_) above
    have := increasing earlier middle (by omega) (by omega)
    omega
  | case3 low high finished =>
    constructor
    · exact below index
    · intro atMost
      by_cases beyond : index < low
      · exact beyond
      · have := above index (by omega) valid
        omega

/-- The keys up to the bound are those before the upper bound. -/
theorem lt_upperBound_iff {keys : Array Nat} (increasing : Increasing keys) {bound : Int}
    {index : Nat} (valid : index < keys.size) :
    index < upperBound keys bound ↔ (keys.getD index 0 : Int) ≤ bound :=
  lt_upperBoundIn_iff increasing (Nat.zero_le _) (Nat.le_refl _)
    (fun _ impossible => absurd impossible (Nat.not_lt_zero _))
    (fun _ atLeast inside => absurd inside (Nat.not_lt.mpr atLeast)) valid

end KotlinHighlight.Sorted
