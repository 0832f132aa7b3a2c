import Mathlib.Data.List.Nodup
import Mathlib.Data.List.Dedup
import KotlinHighlight.Proofs.Highlight.Apart

/-! # Words searched together and one by one

The search for a pattern misses no match that stands apart from those before it
(`mem_stretches_or_covered`). So the matches of known words are the runs of word characters that are
one of the words (`mem_stretches_pattern_iff`), and it does not matter whether the words are searched
all at once or one after the other (`perm_stretches_pattern`).
-/

namespace KotlinHighlight

namespace Pattern

/-- A match at some place is found, unless the place is skipped or inside a match that is found. -/
theorem mem_stretchesFrom_or_covered {pattern : Pattern} {earlier later : Text} {stop : Nat}
    (nonempty : later ≠ []) (skip position : Nat) (before : Option Char)
    (found : pattern.matchEnd? ⟨position + earlier.length, earlier.getLast?.or before, later⟩ =
      .some stop) (forward : position + earlier.length < stop) :
    earlier.length < skip ∨
      ⟨position + earlier.length, stop⟩ ∈
        pattern.stretchesFrom skip position before (earlier ++ later) ∨
      ∃ stretch ∈ pattern.stretchesFrom skip position before (earlier ++ later),
        stretch.start < position + earlier.length ∧ position + earlier.length < stretch.stop := by
  induction earlier generalizing skip position before with
  | nil =>
    obtain ⟨c, rest, rfl⟩ := List.exists_cons_of_ne_nil nonempty
    cases skip with
    | succ skip => exact .inl (Nat.succ_pos skip)
    | zero =>
      rw [List.length_nil, Nat.add_zero, List.getLast?_nil, Option.none_or] at found
      rw [List.length_nil, Nat.add_zero] at forward ⊢
      rw [List.nil_append, stretchesFrom, found]
      dsimp only
      rw [if_pos forward]
      exact .inr (.inl List.mem_cons_self)
  | cons c earlier ih =>
    have previous : (c :: earlier).getLast?.or before = earlier.getLast?.or (.some c) := by
      rw [List.getLast?_cons]
      cases earlier.getLast? <;> rfl
    have place : position + (c :: earlier).length = position + 1 + earlier.length := by
      rw [List.length_cons]
      omega
    rw [previous, place] at found
    rw [place] at forward ⊢
    have next := fun skip => ih skip (position + 1) (.some c) found forward
    rw [List.cons_append]
    cases skip with
    | succ skip =>
      rw [stretchesFrom, List.length_cons, Nat.add_lt_add_iff_right]
      exact next skip
    | zero =>
      rw [stretchesFrom]
      cases pattern.matchEnd? ⟨position, before, c :: (earlier ++ later)⟩ with
      | none => exact .inr ((next 0).resolve_left (Nat.not_lt_zero _))
      | some first =>
        dsimp only
        split
        · right
          rcases next (first - (position + 1)) with skipped | here | ⟨stretch, member, covers⟩
          · exact .inr ⟨_, List.mem_cons_self, by dsimp only; omega⟩
          · exact .inl (List.mem_cons_of_mem _ here)
          · exact .inr ⟨stretch, List.mem_cons_of_mem _ member, covers⟩
        · exact .inr ((next 0).resolve_left (Nat.not_lt_zero _))

/-- A match at some place of a text is found, unless the place is inside a match that is found. -/
theorem mem_stretches_or_covered {pattern : Pattern} {text : Text} {start stop : Nat}
    (within : start < text.length)
    (found : pattern.matchEnd? (text.cursorAt start) = some stop) (forward : start < stop) :
    ⟨start, stop⟩ ∈ pattern.stretches text ∨
      ∃ stretch ∈ pattern.stretches text, stretch.start < start ∧ start < stretch.stop := by
  obtain ⟨earlier, later, rfl, rfl⟩ :
      ∃ earlier later, text = earlier ++ later ∧ start = earlier.length :=
    ⟨text.take start, text.drop start, (List.take_append_drop start text).symm,
      (List.length_take_of_le (Nat.le_of_lt within)).symm⟩
  have nonempty : later ≠ [] := by
    rintro rfl
    rw [List.append_nil] at within
    exact Nat.lt_irrefl _ within
  have here : pattern.matchEnd? ⟨0 + earlier.length, earlier.getLast?.or none, later⟩ =
      .some stop := by
    rw [Nat.zero_add, Option.or_none, ← Cursor.cursorAt_length]
    exact found
  have searched := mem_stretchesFrom_or_covered nonempty 0 0 none here (by omega)
  rw [Nat.zero_add] at searched
  exact searched.resolve_left (Nat.not_lt_zero _)

theorem nodup_stretches (pattern : Pattern) (text : Text) : (pattern.stretches text).Nodup := by
  refine (pattern.pairwise_stretches text).imp_of_mem ?_
  rintro first _ one - apart rfl
  have nonempty := (mem_stretches one).1
  omega

theorem mem_ends_literal {text : Text} {cursor last : Cursor} (reads : cursor.Reads text last) :
    last ∈ (literal text).ends cursor := by
  induction text generalizing cursor with
  | nil =>
    obtain ⟨place, previous, later⟩ := last
    obtain ⟨ahead, position, before⟩ := reads
    rw [List.nil_append] at ahead
    rw [List.length_nil, Nat.add_zero] at position
    rw [List.getLast?_nil, Option.none_or] at before
    dsimp only at ahead position before
    rw [position, before, ← ahead]
    exact List.mem_singleton_self _
  | cons c rest ih =>
    have first : cursor.Reads [c] ⟨cursor.position + 1, some c, rest ++ last.ahead⟩ :=
      ⟨reads.ahead, rfl, rfl⟩
    refine mem_ends_both.mpr ⟨_, mem_ends_one.mpr ⟨c, beq_self_eq_true c, first⟩, ih ⟨rfl, ?_, ?_⟩⟩
    · rw [reads.position, List.length_cons]
      dsimp only
      omega
    · rw [reads.before, List.getLast?_cons]
      cases rest.getLast? <;> rfl

theorem mem_ends_choice {patterns : List Pattern} {pattern : Pattern} (member : pattern ∈ patterns)
    {cursor last : Cursor} (found : last ∈ pattern.ends cursor) :
    last ∈ (choice patterns).ends cursor := by
  induction patterns with
  | nil => exact absurd member List.not_mem_nil
  | cons first others ih =>
    cases others with
    | nil =>
      obtain rfl := List.mem_singleton.mp member
      exact found
    | cons second rest =>
      apply mem_ends_either.mpr
      rcases List.mem_cons.mp member with rfl | later
      · exact .inl found
      · exact .inr (ih later)

end Pattern

namespace Cursor

open Unicode (isWord)

/-- What comes after a run does not start with a character of the run. -/
theorem any_head?_dropWhile (accepts : Char → Bool) (text : Text) :
    (text.dropWhile accepts).head?.any accepts = false := by
  have stopped := List.head?_dropWhile_not accepts text
  cases later : (text.dropWhile accepts).head? with
  | none => rfl
  | some c =>
    rw [later] at stopped
    exact stopped

/-- The run of word characters can be read, up to a boundary. -/
theorem reads_run {text word : Text} {start : Nat} (within : start ≤ text.length)
    (run : (text.cursorAt start).run isWord = word) (nonempty : word ≠ []) :
    (text.cursorAt start).Reads word (text.cursorAt (start + word.length)) ∧
      (text.cursorAt (start + word.length)).atBoundary = true := by
  have ahead : text.drop start = word ++ (text.drop start).dropWhile isWord := by
    rw [← run]
    exact (List.takeWhile_append_dropWhile).symm
  have reads := reads_cursorAt within ahead
  refine ⟨reads, ?_⟩
  have last : (text.cursorAt (start + word.length)).before.any isWord = true := by
    have taken : word.getLast nonempty ∈ (text.drop start).takeWhile isWord := by
      rw [show (text.drop start).takeWhile isWord = word from run]
      exact List.getLast_mem nonempty
    rw [reads.before, List.getLast?_eq_some_getLast nonempty, Option.some_or, Option.any_some]
    exact List.mem_takeWhile_imp taken
  have next : (text.cursorAt (start + word.length)).ahead.head?.any isWord = false := by
    rw [List.append_cancel_left (reads.ahead.symm.trans ahead)]
    exact any_head?_dropWhile isWord (text.drop start)
  rw [atBoundary, last, next]
  rfl

end Cursor

namespace Vocabulary

open Pattern
open Unicode (isWord)

section Words

variable {words : List String} (all : ∀ word ∈ words, word ≠ "" ∧ word.toList.all isWord = true)
  {text : Text}
include all

/-- Where a word is the run of word characters at a boundary it is the only match. -/
theorem matchEnd?_pattern {start : Nat} {word : String} (known : word ∈ words)
    (within : start ≤ text.length) (starts : (text.cursorAt start).atBoundary = true)
    (run : (text.cursorAt start).run isWord = word.toList) :
    (pattern words).matchEnd? (text.cursorAt start) = some (start + word.toList.length) := by
  have nonempty : word.toList ≠ [] := by simpa using (all word known).1
  obtain ⟨reads, stops⟩ := Cursor.reads_run within run nonempty
  have found : text.cursorAt (start + word.toList.length) ∈
      (pattern words).ends (text.cursorAt start) :=
    mem_ends_both.mpr ⟨_, mem_ends_boundary.mpr ⟨starts, rfl⟩, mem_ends_both.mpr ⟨_,
      mem_ends_choice (List.mem_map.mpr ⟨word, mem_tryOrder.mpr known, rfl⟩)
        (mem_ends_literal reads), mem_ends_boundary.mpr ⟨stops, rfl⟩⟩⟩
  obtain ⟨first, others, listed⟩ := List.exists_cons_of_ne_nil (List.ne_nil_of_mem found)
  have preferred : first ∈ (pattern words).ends (text.cursorAt start) :=
    listed ▸ List.mem_cons_self
  obtain ⟨word', known', reads', -, stops'⟩ := mem_ends_pattern preferred
  obtain ⟨nonempty', wordy'⟩ := all word' known'
  have same : word.toList = word'.toList := by
    rw [← run, reads'.run_of_atBoundary (by simpa using nonempty') stops',
      List.takeWhile_eq_self_iff]
    exact List.all_eq_true.mp wordy'
  rw [matchEnd?, listed, List.head?_cons, Option.map_some, reads'.position, same]
  rfl

/-- The matches of known words are the runs of word characters, from boundary to boundary, that are
one of the words. -/
theorem mem_stretches_pattern_iff {stretch : Stretch} :
    stretch ∈ (pattern words).stretches text ↔
      (text.cursorAt stretch.start).atBoundary = true ∧ stretch.start < text.length ∧ ∃ word ∈ words,
        (text.cursorAt stretch.start).run isWord = word.toList ∧
          stretch.stop = stretch.start + word.toList.length := by
  constructor
  · intro member
    obtain ⟨word, known, run, stop, starts⟩ := run_of_mem_stretches all member
    have bounds := mem_stretches_bounds member
    exact ⟨starts, Nat.lt_of_lt_of_le bounds.1 bounds.2, word, known, run, stop⟩
  · obtain ⟨start, stop⟩ := stretch
    rintro ⟨starts, within, word, known, run, stops⟩
    dsimp only at starts within run stops
    obtain rfl := stops
    have positive : 0 < word.toList.length := by
      rw [List.length_pos_iff]
      simpa using (all word known).1
    have found := matchEnd?_pattern all known (Nat.le_of_lt within) starts run
    rcases mem_stretches_or_covered within found (Nat.lt_add_of_pos_right positive) with here | covered
    · exact here
    · obtain ⟨other, member, before, after⟩ := covered
      obtain ⟨word', -, run', stop', -⟩ := run_of_mem_stretches all member
      have inside := Cursor.not_atBoundary_of_run text before (by rw [run']; omega)
      rw [inside] at starts
      exact absurd starts nofun

end Words

/-- Different words searched one after the other have the matches that they have together. -/
theorem perm_stretches_pattern {words : List String} (distinct : words.Nodup)
    (all : ∀ word ∈ words, word ≠ "" ∧ word.toList.all isWord = true) (text : Text) :
    ((pattern words).stretches text).Perm
      (words.flatMap fun word => (pattern [word]).stretches text) := by
  have single : ∀ word ∈ words, ∀ other ∈ [word], other ≠ "" ∧ other.toList.all isWord = true :=
    fun word known other same => List.mem_singleton.mp same ▸ all word known
  rw [List.perm_ext_iff_of_nodup (nodup_stretches _ _)]
  · intro stretch
    rw [mem_stretches_pattern_iff all, List.mem_flatMap]
    constructor
    · rintro ⟨starts, within, word, known, run⟩
      exact ⟨word, known, (mem_stretches_pattern_iff (single word known)).mpr
        ⟨starts, within, word, List.mem_singleton_self word, run⟩⟩
    · rintro ⟨word, known, member⟩
      obtain ⟨starts, within, other, same, run⟩ :=
        (mem_stretches_pattern_iff (single word known)).mp member
      obtain rfl := List.mem_singleton.mp same
      exact ⟨starts, within, other, known, run⟩
  · rw [List.nodup_flatMap]
    refine ⟨fun word _ => nodup_stretches _ _, distinct.imp_of_mem ?_⟩
    intro word word' known known' different stretch one other
    have apart := apart_of_mem_stretches (single word known) (single word' known')
      (fun first same second => different
        ((List.mem_singleton.mp same).symm.trans (List.mem_singleton.mp second))) one other
    have nonempty := (mem_stretches one).1
    rw [Stretch.Apart] at apart
    omega

end Vocabulary

end KotlinHighlight
