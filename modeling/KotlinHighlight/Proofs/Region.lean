import Mathlib.Data.List.Basic
import Mathlib.Data.List.Pairwise
import KotlinHighlight.Region.Index

/-! # The regions of a scan

A scan gives regions in order, each of them after the one before it, not empty and within the text
(`pairwise_scan`, `mem_scan_bounds`). Looking up a position by halving finds its region if it has one
(`contains_iff`). Where the text stands does not matter (`scanFrom_add`).
-/

namespace KotlinHighlight

namespace RegionKind

def opener : RegionKind → Text
  | lineComment => ['/', '/']
  | blockComment => ['/', '*']
  | string => ['"']
  | rawString => Region.rawQuotes
  | character => ['\'']

/-- The length of a region after its opener, by the text that follows the opener. -/
def bodyLength : RegionKind → Text → Nat
  | lineComment, rest => (Text.firstLine rest).length
  | blockComment, rest => Text.lengthThrough Region.commentCloser rest
  | string, rest => Region.quotedLength '"' rest
  | rawString, rest => Text.lengthThrough Region.rawQuotes rest
  | character, rest => Region.quotedLength '\'' rest

end RegionKind

namespace Region

/-- A region opens with the opener of its kind, which for a string is not that of a raw string, and
has the length that its kind says. -/
theorem opening?_eq_some_iff {text : Text} {kind : RegionKind} {length : Nat} :
    opening? text = some (kind, length) ↔ ∃ rest, text = kind.opener ++ rest ∧
      (kind = .string → rawQuotes.isPrefixOf text = false) ∧
      length = kind.opener.length + kind.bodyLength rest := by
  constructor
  · intro opens
    unfold opening? at opens
    split at opens <;> simp only [Option.some.injEq, Prod.mk.injEq, reduceCtorEq] at opens <;>
      obtain ⟨rfl, rfl⟩ := opens
    · exact ⟨_, rfl, nofun, rfl⟩
    · exact ⟨_, rfl, nofun, rfl⟩
    · exact ⟨_, rfl, nofun, rfl⟩
    · rename_i rest single
      refine ⟨rest, rfl, fun _ => ?_, rfl⟩
      rw [Bool.eq_false_iff]
      intro raw
      obtain ⟨more, same⟩ := List.isPrefixOf_iff_prefix.mp raw
      exact single more (List.cons.inj same).2.symm
    · exact ⟨_, rfl, nofun, rfl⟩
  · rintro ⟨rest, rfl, single, rfl⟩
    cases kind with
    | lineComment => rfl
    | blockComment => rfl
    | rawString => rfl
    | character => rfl
    | string =>
      have notRaw := single rfl
      simp only [RegionKind.opener, List.singleton_append] at notRaw ⊢
      unfold opening?
      split <;> simp_all [rawQuotes, List.isPrefixOf, RegionKind.bodyLength]

/-- No region opens exactly where there is none of the openers. -/
theorem opening?_eq_none_iff {text : Text} :
    opening? text = none ↔ ∀ kind : RegionKind, kind.opener.isPrefixOf text = false := by
  constructor
  · intro plain kind
    rw [Bool.eq_false_iff]
    intro opens
    obtain ⟨rest, rfl⟩ := List.isPrefixOf_iff_prefix.mp opens
    by_cases raw : rawQuotes.isPrefixOf (kind.opener ++ rest) = true
    · obtain ⟨more, same⟩ := List.isPrefixOf_iff_prefix.mp raw
      rw [← same] at plain
      exact absurd plain nofun
    · have found := opening?_eq_some_iff.mpr
        ⟨rest, rfl, fun _ : kind = .string => Bool.eq_false_iff.mpr raw, rfl⟩
      rw [plain] at found
      exact absurd found nofun
  · intro refused
    rw [Option.eq_none_iff_forall_ne_some]
    rintro ⟨kind, length⟩ opens
    obtain ⟨rest, rfl, -, -⟩ := opening?_eq_some_iff.mp opens
    have opener := List.isPrefixOf_iff_prefix.mpr (List.prefix_append kind.opener rest)
    rw [refused kind] at opener
    exact absurd opener nofun

def moved (distance : Nat) (region : Region) : Region :=
  { region with start := region.start + distance, stop := region.stop + distance }

def holds (region : Region) (position : Int) : Bool :=
  region.start ≤ position && position < region.stop

theorem holds_iff {region : Region} {position : Int} :
    region.holds position = true ↔ region.start ≤ position ∧ position < region.stop := by
  rw [holds, Bool.and_eq_true, decide_eq_true_eq, decide_eq_true_eq]

/-- The course of a scan: the text ends, a character opens nothing, or a region is passed over. -/
@[elab_as_elim]
theorem scanInduction {motive : Text → Prop} (nil : motive [])
    (plain : ∀ c rest, opening? (c :: rest) = none → motive rest → motive (c :: rest))
    (region : ∀ text kind length, opening? text = some (kind, length) →
      motive (text.drop length) → motive text) (text : Text) : motive text := by
  induction size : text.length using Nat.strongRecOn generalizing text with
  | ind size ih =>
    cases opens : opening? text with
    | none =>
      cases text with
      | nil => exact nil
      | cons c rest =>
        refine plain c rest opens (ih rest.length ?_ rest rfl)
        rw [← size, List.length_cons]
        exact Nat.lt_succ_self _
    | some found =>
      obtain ⟨kind, length⟩ := found
      obtain ⟨positive, within⟩ := opening?_bounds opens
      refine region text kind length opens (ih _ ?_ _ rfl)
      rw [List.length_drop]
      omega

/-- Where a text stands moves its regions and nothing else. -/
theorem scanFrom_add (position distance : Nat) (text : Text) :
    scanFrom 0 (position + distance) text = (scanFrom 0 position text).map (moved distance) := by
  induction text using scanInduction generalizing position with
  | nil => rfl
  | plain c rest opens ih =>
    rw [scanFrom_of_opening?_eq_none _ opens, scanFrom_of_opening?_eq_none _ opens, ← ih]
    congr 1
    omega
  | region text kind length opens ih =>
    rw [scanFrom_of_opening?_eq_some _ opens, scanFrom_of_opening?_eq_some _ opens, List.map_cons,
      ← ih]
    have stop : position + distance + length = position + length + distance := by omega
    rw [stop]
    rfl

/-- A region starts with what opens it. -/
theorem mem_scanFrom {position : Nat} {text : Text} {region : Region}
    (member : region ∈ scanFrom 0 position text) :
    ∃ before length, region = ⟨position + before, position + before + length, region.kind⟩ ∧
      opening? (text.drop before) = some (region.kind, length) := by
  induction text using scanInduction generalizing position with
  | nil => simp [scanFrom] at member
  | plain c rest opens ih =>
    rw [scanFrom_of_opening?_eq_none _ opens] at member
    obtain ⟨before, length, same, found⟩ := ih member
    refine ⟨before + 1, length, ?_, found⟩
    rw [same]
    simp only [mk.injEq, and_true]
    omega
  | region text kind length opens ih =>
    rw [scanFrom_of_opening?_eq_some _ opens, List.mem_cons] at member
    rcases member with rfl | later
    · exact ⟨0, length, rfl, opens⟩
    · obtain ⟨before, size, same, found⟩ := ih later
      refine ⟨length + before, size, ?_, ?_⟩
      · rw [same]
        simp only [mk.injEq, and_true]
        omega
      · rwa [List.drop_drop] at found

/-- A region is not empty and within its text. -/
theorem mem_scanFrom_bounds {position : Nat} {text : Text} {region : Region}
    (member : region ∈ scanFrom 0 position text) :
    position ≤ region.start ∧ region.start < region.stop ∧
      region.stop ≤ position + text.length := by
  obtain ⟨before, length, same, found⟩ := mem_scanFrom member
  obtain ⟨positive, within⟩ := opening?_bounds found
  rw [List.length_drop] at within
  rw [same]
  simp only
  omega

/-- Each region stops before the next one starts. -/
theorem pairwise_scanFrom (position : Nat) (text : Text) :
    (scanFrom 0 position text).Pairwise fun earlier later => earlier.stop ≤ later.start := by
  induction text using scanInduction generalizing position with
  | nil => exact List.Pairwise.nil
  | plain c rest opens ih =>
    rw [scanFrom_of_opening?_eq_none _ opens]
    exact ih _
  | region text kind length opens ih =>
    rw [scanFrom_of_opening?_eq_some _ opens]
    exact List.pairwise_cons.mpr ⟨fun later member => (mem_scanFrom_bounds member).1, ih _⟩

theorem pairwise_scan (text : Text) :
    (scan text).Pairwise fun earlier later => earlier.stop ≤ later.start :=
  pairwise_scanFrom 0 text

/-- Two different regions of a text do not overlap. -/
theorem apart_of_mem_scan {text : Text} {first second : Region} (one : first ∈ scan text)
    (other : second ∈ scan text) (different : first ≠ second) :
    first.stop ≤ second.start ∨ second.stop ≤ first.start := by
  have symmetric : Std.Symm fun one other : Region =>
      one.stop ≤ other.start ∨ other.stop ≤ one.start := ⟨fun _ _ => Or.symm⟩
  have apart : (scan text).Pairwise fun one other =>
      one.stop ≤ other.start ∨ other.stop ≤ one.start :=
    (pairwise_scan text).imp Or.inl
  exact apart.forall one other different

theorem mem_scan_bounds {text : Text} {region : Region} (member : region ∈ scan text) :
    region.start < region.stop ∧ region.stop ≤ text.length := by
  obtain ⟨-, nonempty, within⟩ := mem_scanFrom_bounds member
  exact ⟨nonempty, by omega⟩

/-- What opens a region is a slash or a quote. -/
theorem head_of_opening?_eq_some {text : Text} {kind : RegionKind} {length : Nat}
    (opens : opening? text = some (kind, length)) :
    ∃ c rest, text = c :: rest ∧ (c = '/' ∨ c = '"' ∨ c = '\'') := by
  obtain ⟨rest, rfl, -, -⟩ := opening?_eq_some_iff.mp opens
  cases kind with
  | lineComment => exact ⟨'/', _, rfl, .inl rfl⟩
  | blockComment => exact ⟨'/', _, rfl, .inl rfl⟩
  | string => exact ⟨'"', _, rfl, .inr (.inl rfl)⟩
  | rawString => exact ⟨'"', _, rfl, .inr (.inl rfl)⟩
  | character => exact ⟨'\'', _, rfl, .inr (.inr rfl)⟩

end Region

namespace RegionIndex

open Region (scan)

theorem increasing_starts (text : Text) : Sorted.Increasing (ofText text).starts := by
  intro first second ordered within
  simp only [ofText, Array.size_map, List.size_toArray] at within
  simp only [ofText, Array.getD_eq_getD_getElem?, Array.getElem?_map, List.getElem?_toArray,
    List.getElem?_eq_getElem within, List.getElem?_eq_getElem (Nat.lt_of_le_of_lt ordered within),
    Option.map_some, Option.getD_some]
  rcases Nat.eq_or_lt_of_le ordered with rfl | before
  · exact Nat.le_refl _
  · have valid := Nat.lt_of_le_of_lt ordered within
    have parted := List.pairwise_iff_getElem.mp (Region.pairwise_scan text) first second valid
      within before
    have bounds := Region.mem_scan_bounds (List.getElem_mem valid)
    exact Nat.le_trans (Nat.le_of_lt bounds.1) parted

/-- The first regions, up to a position, are those that start there or before. -/
theorem lt_upperBound_iff {text : Text} {number : Nat} {region : Region}
    (there : (scan text)[number]? = some region) (position : Int) :
    number < Sorted.upperBound (ofText text).starts position ↔ (region.start : Int) ≤ position := by
  have valid : number < (ofText text).starts.size := by
    simp only [ofText, Array.size_map, List.size_toArray]
    exact (List.getElem?_eq_some_iff.mp there).1
  rw [Sorted.lt_upperBound_iff (increasing_starts text) valid]
  simp only [ofText, Array.getD_eq_getD_getElem?, Array.getElem?_map, List.getElem?_toArray, there,
    Option.map_some, Option.getD_some]

/-- The region that halving finds is the one around the position. -/
theorem regionAt?_eq_some_iff {text : Text} {position : Int} {region : Region} :
    (ofText text).regionAt? position = some region ↔
      region ∈ scan text ∧ region.holds position = true := by
  have size : Sorted.upperBound (ofText text).starts position ≤ (scan text).length := by
    simpa [ofText] using Sorted.upperBound_le_size (ofText text).starts position
  rw [regionAt?, Region.holds_iff]
  constructor
  · intro found
    cases count : Sorted.upperBound (ofText text).starts position with
    | zero => simp [count] at found
    | succ last =>
      simp only [count, Option.filter_eq_some_iff, decide_eq_true_eq] at found
      have there : (scan text)[last]? = some region := by simpa [ofText] using found.1
      have reached := (lt_upperBound_iff there position).mp (by omega)
      exact ⟨List.mem_of_getElem? there, reached, found.2⟩
  · rintro ⟨member, starts, stops⟩
    obtain ⟨number, there⟩ := List.getElem?_of_mem member
    have counted := (lt_upperBound_iff there position).mpr starts
    cases count : Sorted.upperBound (ofText text).starts position with
    | zero => omega
    | succ last =>
      have follows := List.getElem?_eq_getElem (show last < (scan text).length by omega)
      have latest := (lt_upperBound_iff follows position).mp (by omega)
      have same : number = last := by
        refine Nat.le_antisymm (by omega) (Nat.le_of_not_lt fun before => ?_)
        have valid := (List.getElem?_eq_some_iff.mp there).1
        have parted := List.pairwise_iff_getElem.mp (Region.pairwise_scan text) number last
          valid (by omega) before
        rw [(List.getElem?_eq_some_iff.mp there).2] at parted
        omega
      subst same
      simp only [Option.filter_eq_some_iff, decide_eq_true_eq]
      exact ⟨by simpa [ofText] using there, stops⟩

theorem contains_iff (text : Text) (position : Int) :
    (ofText text).contains position = (scan text).any (·.holds position) := by
  rw [Bool.eq_iff_iff, contains, Option.isSome_iff_exists, List.any_eq_true]
  exact exists_congr fun region => regionAt?_eq_some_iff

end RegionIndex

end KotlinHighlight
