import Mathlib.Data.List.Forall2
import KotlinHighlight.Pattern.Ends

/-! # Patterns look no further than a run

A pattern whose characters are all of one class, to which the word characters belong, sees of a text
only the run of that class ahead and whether a word character stands before (`ends_alike`). So its
matches on the two sides of any other character are found independently of each other
(`stretches_append_separator`).
-/

namespace KotlinHighlight

namespace Cursor

/-- Reading a text leads from one cursor to another. -/
structure Reads (first : Cursor) (text : Text) (last : Cursor) : Prop where
  ahead : first.ahead = text ++ last.ahead
  position : last.position = first.position + text.length
  before : last.before = text.getLast?.or first.before

theorem Reads.refl (cursor : Cursor) : cursor.Reads [] cursor :=
  ⟨rfl, rfl, rfl⟩

theorem Reads.trans {first second third : Cursor} {text more : Text} (one : first.Reads text second)
    (other : second.Reads more third) : first.Reads (text ++ more) third where
  ahead := by rw [one.ahead, other.ahead, List.append_assoc]
  position := by rw [other.position, one.position, List.length_append, Nat.add_assoc]
  before := by rw [other.before, one.before, List.getLast?_append, Option.or_assoc]

/-- The characters of a class that stand right ahead of a cursor. -/
def run (accepts : Char → Bool) (cursor : Cursor) : Text :=
  cursor.ahead.takeWhile accepts

theorem length_run_le (accepts : Char → Bool) (cursor : Cursor) :
    (cursor.run accepts).length ≤ cursor.ahead.length :=
  (List.takeWhile_prefix accepts).length_le

/-- Characters of the class that are read leave the rest of the run. -/
theorem Reads.run_eq {accepts : Char → Bool} {first last : Cursor} {text : Text}
    (reads : first.Reads text last) (inText : ∀ c ∈ text, accepts c = true) :
    first.run accepts = text ++ last.run accepts := by
  rw [run, reads.ahead, List.takeWhile_append_of_pos inText, run]

/-- Two cursors, the second one further on, with the same run of a class ahead and both or neither
after a word character. -/
structure Alike (accepts : Char → Bool) (distance : Nat) (first second : Cursor) : Prop where
  position : second.position = first.position + distance
  before : second.before.any Unicode.isWord = first.before.any Unicode.isWord
  run : second.run accepts = first.run accepts

/-- The same character of the class is next, or none of it. -/
theorem Alike.head?_filter {accepts : Char → Bool} {distance : Nat} {first second : Cursor}
    (alike : first.Alike accepts distance second) :
    second.ahead.head?.filter accepts = first.ahead.head?.filter accepts := by
  have same := alike.run
  rw [Cursor.run, Cursor.run] at same
  rw [← List.head?_takeWhile, ← List.head?_takeWhile, same]

/-- A boundary shows on both sides of a run that has all word characters. -/
theorem Alike.atBoundary_eq {accepts : Char → Bool} {distance : Nat} {first second : Cursor}
    (words : ∀ c, Unicode.isWord c = true → accepts c = true)
    (alike : first.Alike accepts distance second) : second.atBoundary = first.atBoundary := by
  have filtered : ∀ next : Option Char,
      next.any Unicode.isWord = (next.filter accepts).any Unicode.isWord := by
    intro next
    cases next with
    | none => rfl
    | some c =>
      by_cases accepted : accepts c = true
      · rw [Option.filter_some, if_pos accepted]
      · have noWord : Unicode.isWord c = false :=
          Bool.eq_false_iff.mpr fun word => accepted (words c word)
        rw [Option.filter_some, if_neg accepted, Option.any_some, noWord, Option.any_none]
  rw [atBoundary, atBoundary, alike.before, filtered second.ahead.head?, alike.head?_filter,
    ← filtered]

end Cursor

namespace Pattern

open Cursor (Alike Reads)

/-- Whether each match of a pattern takes at least one character. -/
def Advances (pattern : Pattern) : Prop :=
  ∀ cursor, ∀ last ∈ pattern.ends cursor, cursor.position < last.position

/-- Whether all characters that a pattern takes are of one class. Greedy repetitions have to advance,
and reluctant ones are left out. -/
def Within (accepts : Char → Bool) : Pattern → Prop
  | empty | boundary => True
  | one class' => ∀ c, class' c = true → accepts c = true
  | both first second | either first second => first.Within accepts ∧ second.Within accepts
  | many body => body.Within accepts ∧ body.Advances
  | few _ => False

theorem mem_ends_one {accepts : Char → Bool} {cursor last : Cursor} :
    last ∈ (one accepts).ends cursor ↔ ∃ c, accepts c = true ∧ cursor.Reads [c] last := by
  obtain ⟨position, before, ahead⟩ := cursor
  obtain ⟨place, previous, later⟩ := last
  cases ahead with
  | nil =>
    refine ⟨fun member => absurd member List.not_mem_nil, ?_⟩
    rintro ⟨c, -, reads⟩
    exact absurd reads.ahead (List.cons_ne_nil _ _).symm
  | cons c rest =>
    simp only [ends, List.mem_ite_nil_right, List.mem_singleton, Cursor.mk.injEq]
    constructor
    · rintro ⟨accepted, rfl, rfl, rfl⟩
      exact ⟨c, accepted, rfl, rfl, rfl⟩
    · rintro ⟨d, accepted, ahead, rfl, rfl⟩
      obtain ⟨rfl, rfl⟩ := List.cons.inj ahead
      exact ⟨accepted, rfl, rfl, rfl⟩

theorem mem_ends_both {first second : Pattern} {cursor last : Cursor} :
    last ∈ (both first second).ends cursor ↔
      ∃ middle ∈ first.ends cursor, last ∈ second.ends middle :=
  List.mem_flatMap

theorem mem_ends_either {first second : Pattern} {cursor last : Cursor} :
    last ∈ (either first second).ends cursor ↔
      last ∈ first.ends cursor ∨ last ∈ second.ends cursor :=
  List.mem_append

theorem mem_ends_boundary {cursor last : Cursor} :
    last ∈ boundary.ends cursor ↔ cursor.atBoundary = true ∧ last = cursor := by
  rw [ends, List.mem_ite_nil_right, List.mem_singleton]

theorem mem_ends_optional {body : Pattern} {cursor last : Cursor} :
    last ∈ (optional body).ends cursor ↔ last ∈ body.ends cursor ∨ last = cursor := by
  rw [optional, mem_ends_either, ends, List.mem_singleton]

/-- What the steps of a greedy repetition read has a property that each step has, if nothing has it
and it carries over to texts put together. -/
theorem reads_of_mem_manySteps {step : Cursor → List Cursor} {good : Text → Prop} (nil : good [])
    (append : ∀ text more, good text → good more → good (text ++ more))
    (reads : ∀ cursor, ∀ next ∈ step cursor, ∃ text, cursor.Reads text next ∧ good text)
    {count : Nat} {cursor last : Cursor} (member : last ∈ manySteps step count cursor []) :
    ∃ text, cursor.Reads text last ∧ good text := by
  induction count generalizing cursor with
  | zero =>
    obtain rfl := List.mem_singleton.mp member
    exact ⟨[], .refl _, nil⟩
  | succ count ih =>
    rcases mem_manySteps_succ.mp member with ⟨next, stepped, rest⟩ | rfl
    · obtain ⟨text, one, goodText⟩ := reads cursor next stepped
      obtain ⟨more, other, goodMore⟩ := ih rest
      exact ⟨text ++ more, one.trans other, append text more goodText goodMore⟩
    · exact ⟨[], .refl _, nil⟩

/-- A pattern of one class reads characters of that class. -/
theorem reads_of_mem_ends {accepts : Char → Bool} {pattern : Pattern}
    (within : pattern.Within accepts) {cursor last : Cursor} (member : last ∈ pattern.ends cursor) :
    ∃ text, cursor.Reads text last ∧ ∀ c ∈ text, accepts c = true := by
  induction pattern generalizing cursor last with
  | empty =>
    obtain rfl := List.mem_singleton.mp member
    exact ⟨[], .refl _, nofun⟩
  | one class' =>
    obtain ⟨c, accepted, reads⟩ := mem_ends_one.mp member
    refine ⟨[c], reads, fun d here => ?_⟩
    rw [List.mem_singleton.mp here]
    exact within c accepted
  | both first second ihFirst ihSecond =>
    obtain ⟨middle, one, other⟩ := mem_ends_both.mp member
    obtain ⟨text, reads, inText⟩ := ihFirst within.1 one
    obtain ⟨more, readsMore, inMore⟩ := ihSecond within.2 other
    exact ⟨text ++ more, reads.trans readsMore, List.forall_mem_append.mpr ⟨inText, inMore⟩⟩
  | either first second ihFirst ihSecond =>
    rcases mem_ends_either.mp member with one | other
    · exact ihFirst within.1 one
    · exact ihSecond within.2 other
  | many body ih =>
    have append : ∀ text more : Text, (∀ c ∈ text, accepts c = true) →
        (∀ c ∈ more, accepts c = true) → ∀ c ∈ text ++ more, accepts c = true :=
      fun _ _ inText inMore => List.forall_mem_append.mpr ⟨inText, inMore⟩
    exact reads_of_mem_manySteps nofun append (fun _ _ stepped => ih within.1 stepped) member
  | few body => exact within.elim
  | boundary =>
    obtain ⟨-, rfl⟩ := mem_ends_boundary.mp member
    exact ⟨[], .refl _, nofun⟩

/-- A step that takes characters of a run leaves a shorter run. -/
theorem length_run_lt_of_mem_ends {accepts : Char → Bool} {pattern : Pattern}
    (within : pattern.Within accepts) (advances : pattern.Advances) {cursor last : Cursor}
    (member : last ∈ pattern.ends cursor) :
    (last.run accepts).length < (cursor.run accepts).length := by
  obtain ⟨text, reads, inText⟩ := reads_of_mem_ends within member
  have moved := advances cursor last member
  rw [reads.position] at moved
  rw [reads.run_eq inText, List.length_append]
  omega

/-- Steps that shorten a run and go alike from cursors that are alike go on alike too, whatever the
limits on their number, if the run is within both. -/
theorem manySteps_alike {accepts : Char → Bool} {distance : Nat} {step : Cursor → List Cursor}
    (shrinks : ∀ cursor, ∀ next ∈ step cursor,
      (next.run accepts).length < (cursor.run accepts).length)
    (same : ∀ first second, first.Alike accepts distance second →
      List.Forall₂ (Alike accepts distance) (step first) (step second))
    {limit other : Nat} {first second : Cursor} (alike : first.Alike accepts distance second)
    (within : (first.run accepts).length ≤ limit) (withinOther : (first.run accepts).length ≤ other)
    {later laterOther : List Cursor} (rest : List.Forall₂ (Alike accepts distance) later laterOther) :
    List.Forall₂ (Alike accepts distance) (manySteps step limit first later)
      (manySteps step other second laterOther) := by
  -- Where the run has ended there is no step, so that a limit of zero stops nothing.
  have halts : ∀ cursor : Cursor, (cursor.run accepts).length ≤ 0 → step cursor = [] := by
    intro cursor ended
    rw [List.eq_nil_iff_forall_not_mem]
    intro next member
    have shorter := shrinks cursor next member
    omega
  induction limit generalizing other first second later laterOther with
  | zero =>
    have here : List.Forall₂ (Alike accepts distance) (first :: later) (second :: laterOther) :=
      .cons alike rest
    cases other with
    | zero => exact here
    | succ other =>
      rw [manySteps, manySteps, halts second (alike.run ▸ within)]
      exact here
  | succ limit ih =>
    have here : List.Forall₂ (Alike accepts distance) (first :: later) (second :: laterOther) :=
      .cons alike rest
    cases other with
    | zero =>
      rw [manySteps, manySteps, halts first withinOther]
      exact here
    | succ other =>
      have chain : ∀ {nexts nextsOther}, List.Forall₂ (Alike accepts distance) nexts nextsOther →
          (∀ next ∈ nexts, (next.run accepts).length < (first.run accepts).length) →
          List.Forall₂ (Alike accepts distance)
            (nexts.foldr (manySteps step limit) (first :: later))
            (nextsOther.foldr (manySteps step other) (second :: laterOther)) := by
        intro nexts nextsOther related shorter
        induction related with
        | nil => exact here
        | cons next _ more =>
          rw [List.forall_mem_cons] at shorter
          exact ih next (by omega) (by omega) (more shorter.2)
      exact chain (same first second alike) (shrinks first)

theorem ends_one_of_none {accepts : Char → Bool} {cursor : Cursor}
    (refused : cursor.ahead.head?.filter accepts = none) : (one accepts).ends cursor = [] := by
  obtain ⟨position, before, ahead⟩ := cursor
  cases ahead with
  | nil => rfl
  | cons c rest => exact if_neg (by simpa using refused)

/-- One character of the class is taken from both of two cursors that are alike, or from none. -/
theorem ends_one_alike {accepts class' : Char → Bool} (within : (one class').Within accepts)
    {distance : Nat} {first second : Cursor} (alike : first.Alike accepts distance second) :
    List.Forall₂ (Alike accepts distance) ((one class').ends first) ((one class').ends second) := by
  have narrower : (fun c => accepts c && class' c) = class' :=
    funext fun c => Bool.and_eq_right_iff_imp.mpr (within c)
  have heads : second.ahead.head?.filter class' = first.ahead.head?.filter class' := by
    rw [← narrower, ← Option.filter_filter, alike.head?_filter, Option.filter_filter]
  cases next : first.ahead.head?.filter class' with
  | none =>
    rw [ends_one_of_none next, ends_one_of_none (heads.trans next)]
    exact .nil
  | some c =>
    rw [next] at heads
    obtain ⟨position, before, ahead⟩ := first
    obtain ⟨place, previous, later⟩ := second
    obtain ⟨here, taken⟩ := Option.filter_eq_some_iff.mp next
    obtain ⟨rest, rfl⟩ := List.head?_eq_some_iff.mp here
    obtain ⟨others, rfl⟩ := List.head?_eq_some_iff.mp (Option.filter_eq_some_iff.mp heads).1
    obtain ⟨rfl, -, run⟩ := alike
    have accepted := within c taken
    rw [Cursor.run, Cursor.run, List.takeWhile_cons_of_pos accepted,
      List.takeWhile_cons_of_pos accepted] at run
    rw [ends, ends, if_pos taken, if_pos taken]
    exact .cons ⟨Nat.add_right_comm _ _ _, rfl, (List.cons.inj run).2⟩ .nil

/-- Of a text a pattern of one class sees no more than the run of that class. -/
theorem ends_alike {accepts : Char → Bool} (words : ∀ c, Unicode.isWord c = true → accepts c = true)
    {pattern : Pattern} (within : pattern.Within accepts) {distance : Nat} {first second : Cursor}
    (alike : first.Alike accepts distance second) :
    List.Forall₂ (Alike accepts distance) (pattern.ends first) (pattern.ends second) := by
  induction pattern generalizing first second with
  | empty => exact .cons alike .nil
  | one class' => exact ends_one_alike within alike
  | both one other ihOne ihOther =>
    exact List.rel_flatMap (ihOne within.1 alike) fun _ _ => ihOther within.2
  | either one other ihOne ihOther =>
    exact List.rel_append (ihOne within.1 alike) (ihOther within.2 alike)
  | many body ih =>
    have room := Cursor.length_run_le accepts second
    rw [alike.run] at room
    exact manySteps_alike (fun _ _ => length_run_lt_of_mem_ends within.1 within.2)
      (fun _ _ => ih within.1) alike (Cursor.length_run_le accepts first) room .nil
  | few body => exact within.elim
  | boundary =>
    rw [ends, ends, alike.atBoundary_eq words]
    split
    · exact .cons alike .nil
    · exact .nil

end Pattern

end KotlinHighlight
