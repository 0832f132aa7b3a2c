import KotlinHighlight.Proofs.Number.Separators
import KotlinHighlight.Vocabulary

/-! # What a known word looks like

A match of known words is one of the words, between word boundaries (`mem_ends_pattern`). No word is
in two tables, and none can be part of a number.
-/

namespace KotlinHighlight

namespace Pattern

theorem reads_literal {text : Text} {cursor last : Cursor}
    (member : last ∈ (literal text).ends cursor) : cursor.Reads text last := by
  induction text generalizing cursor with
  | nil =>
    obtain rfl := List.mem_singleton.mp member
    exact .refl _
  | cons c rest ih =>
    obtain ⟨middle, first, more⟩ := mem_ends_both.mp member
    obtain ⟨d, same, reads⟩ := mem_ends_one.mp first
    obtain rfl := beq_iff_eq.mp same
    exact reads.trans (ih more)

theorem exists_of_mem_ends_choice {patterns : List Pattern} {cursor last : Cursor}
    (member : last ∈ (choice patterns).ends cursor) :
    ∃ pattern ∈ patterns, last ∈ pattern.ends cursor := by
  induction patterns with
  | nil =>
    obtain ⟨c, taken, -⟩ := mem_ends_one.mp member
    exact absurd taken nofun
  | cons first others ih =>
    cases others with
    | nil => exact ⟨first, List.mem_singleton_self _, member⟩
    | cons second rest =>
      rcases mem_ends_either.mp member with here | later
      · exact ⟨first, List.mem_cons_self, here⟩
      · obtain ⟨pattern, chosen, found⟩ := ih later
        exact ⟨pattern, List.mem_cons_of_mem _ chosen, found⟩

end Pattern

namespace Vocabulary

open Pattern
open Unicode (isDecimal isWord)

/-- A known word is one of the words that are searched, between word boundaries. -/
theorem mem_ends_pattern {words : List String} {cursor last : Cursor}
    (member : last ∈ (pattern words).ends cursor) :
    ∃ word ∈ words, cursor.Reads word.toList last ∧ cursor.atBoundary = true ∧
      last.atBoundary = true := by
  obtain ⟨start, first, second⟩ := mem_ends_both.mp member
  obtain ⟨afterWord, third, stop⟩ := mem_ends_both.mp second
  obtain ⟨starts, rfl⟩ := mem_ends_boundary.mp first
  obtain ⟨stops, rfl⟩ := mem_ends_boundary.mp stop
  obtain ⟨_, chosen, reads⟩ := exists_of_mem_ends_choice third
  obtain ⟨word, known, rfl⟩ := List.mem_map.mp chosen
  exact ⟨word, mem_tryOrder.mp known, reads_literal reads, starts, stops⟩

theorem within_literal {accepts : Char → Bool} {text : Text}
    (all : ∀ c ∈ text, accepts c = true) : (literal text).Within accepts := by
  induction text with
  | nil => trivial
  | cons c rest ih =>
    rw [List.forall_mem_cons] at all
    refine ⟨fun d same => ?_, ih all.2⟩
    rw [beq_iff_eq.mp same]
    exact all.1

theorem within_choice {accepts : Char → Bool} {patterns : List Pattern}
    (all : ∀ pattern ∈ patterns, pattern.Within accepts) : (choice patterns).Within accepts := by
  induction patterns with
  | nil => exact fun _ taken => absurd taken nofun
  | cons first others ih =>
    rw [List.forall_mem_cons] at all
    cases others with
    | nil => exact all.1
    | cons second rest => exact ⟨all.1, ih all.2⟩

/-- Words with word characters only are searched among word characters only. -/
theorem within_pattern {words : List String}
    (all : ∀ word ∈ words, ∀ c ∈ word.toList, isWord c = true) : (pattern words).Within isWord := by
  refine ⟨trivial, within_choice fun part member => ?_, trivial⟩
  obtain ⟨word, known, rfl⟩ := List.mem_map.mp member
  exact within_literal (all word (mem_tryOrder.mp known))

/-- So are known words of one table, some or all of them. -/
theorem within_pattern_of_subset {table : Category × List String} (known : table ∈ tables)
    {words : List String} (inTable : words ⊆ table.2) : (pattern words).Within isWord :=
  within_pattern fun word member =>
    List.all_eq_true.mp (isWord_of_mem_tables table known word (inTable member)).2

/-- No known word has a decimal digit or is a part of a number. -/
theorem no_number_of_mem_tables : ∀ table ∈ tables, ∀ word ∈ table.2,
    word.toList.any isDecimal = false ∧ word.toList ∉ [['e'], ['E']] ++ Number.suffixes := by
  decide

theorem nodup_of_mem_tables : ∀ table ∈ tables, table.2.Nodup := by
  decide

/-- No word is in two tables. -/
theorem pairwise_tables : tables.Pairwise fun earlier later =>
    ∀ word ∈ earlier.2, word ∉ later.2 := by
  decide

end Vocabulary

end KotlinHighlight
