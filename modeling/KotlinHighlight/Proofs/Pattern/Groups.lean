import KotlinHighlight.Proofs.Pattern.Language

/-! # What the parts of a match are

Patterns that stand one after the other match a part of the text each. The search for these parts goes
back to an earlier pattern and its next end where a later one does not match (`groups?`). It finds parts
just where there are some (`isSome_groups?`), and each part is one that its own pattern takes
(`reads_of_groups?`).
-/

namespace KotlinHighlight

namespace Cursor

def upTo (cursor last : Cursor) : Text :=
  cursor.ahead.take (last.position - cursor.position)

theorem Reads.upTo_eq {cursor last : Cursor} {text : Text} (reads : cursor.Reads text last) :
    cursor.upTo last = text := by
  rw [upTo, reads.position, Nat.add_sub_cancel_left, reads.ahead, List.take_left]

end Cursor

namespace Pattern

/-- The texts that patterns match one after the other. The ends of a pattern are tried in order of
preference until the patterns after it match as well. -/
def groups? : List Pattern → Cursor → Option (List Text)
  | [], _ => some []
  | first :: others, cursor =>
    (first.ends cursor).findSome? fun middle =>
      (groups? others middle).map (cursor.upTo middle :: ·)

theorem exists_of_groups?_cons {first : Pattern} {others : List Pattern} {cursor : Cursor}
    {texts : List Text} (found : groups? (first :: others) cursor = some texts) :
    ∃ middle ∈ first.ends cursor, ∃ more, groups? others middle = some more ∧
      texts = cursor.upTo middle :: more := by
  obtain ⟨middle, member, tried⟩ := List.exists_of_findSome?_eq_some found
  obtain ⟨more, later, rfl⟩ := Option.map_eq_some_iff.mp tried
  exact ⟨middle, member, more, later, rfl⟩

section Takes

variable {patterns : List Pattern} {goods : List (Text → Prop)}
  (takes : List.Forall₂ Takes patterns goods)
include takes

/-- Each part is one that its own pattern takes, and they are read one after the other. -/
theorem reads_of_groups? {cursor : Cursor} {texts : List Text}
    (found : groups? patterns cursor = some texts) :
    List.Forall₂ (fun good text => good text) goods texts ∧
      ∃ last, cursor.Reads texts.flatten last := by
  induction takes generalizing cursor texts with
  | nil =>
    obtain rfl := Option.some.inj found
    exact ⟨.nil, cursor, .refl cursor⟩
  | cons takesFirst _ ih =>
    obtain ⟨middle, member, more, later, rfl⟩ := exists_of_groups?_cons found
    obtain ⟨text, goodText, reads⟩ := (takesFirst cursor middle).mp member
    obtain ⟨goodMore, last, readsMore⟩ := ih later
    rw [reads.upTo_eq]
    exact ⟨.cons goodText goodMore, last, reads.trans readsMore⟩

/-- Where there are texts that the patterns take, the search does not miss all of them. -/
theorem isSome_groups? {cursor last : Cursor} {texts : List Text}
    (good : List.Forall₂ (fun good text => good text) goods texts)
    (reads : cursor.Reads texts.flatten last) : (groups? patterns cursor).isSome = true := by
  induction takes generalizing cursor texts with
  | nil => rfl
  | cons takesFirst _ ih =>
    cases good with
    | cons goodText goodMore =>
      obtain ⟨middle, readsText, readsMore⟩ := reads.split
      have member := (takesFirst cursor middle).mpr ⟨_, goodText, readsText⟩
      rw [groups?, List.isSome_findSome?, List.any_eq_true]
      refine ⟨middle, member, ?_⟩
      rw [Option.isSome_map]
      exact ih goodMore readsMore

end Takes

/-- The first answer at a cursor or further on. -/
def searchFrom {α : Type} (answer : Cursor → Option α) (position : Nat) (before : Option Char) :
    Text → Option α
  | [] => answer ⟨position, before, []⟩
  | c :: rest =>
    (answer ⟨position, before, c :: rest⟩).or (searchFrom answer (position + 1) (some c) rest)

/-- The texts that patterns match one after the other at the first place of a text where they do. -/
def search? (patterns : List Pattern) (text : Text) : Option (List Text) :=
  searchFrom (groups? patterns) 0 none text

theorem map_searchFrom {α β : Type} (answer : Cursor → Option α) (convert : α → β) (position : Nat)
    (before : Option Char) (text : Text) :
    (searchFrom answer position before text).map convert =
      searchFrom (fun cursor => (answer cursor).map convert) position before text := by
  induction text generalizing position before with
  | nil => rfl
  | cons c rest ih => rw [searchFrom, searchFrom, Option.map_or, ih]

end Pattern

end KotlinHighlight
