import Mathlib.Data.List.Perm.Basic
import KotlinHighlight.Proofs.Heuristic.Open
import KotlinHighlight.Proofs.Highlight.Outside
import KotlinHighlight.Proofs.Vocabulary.Search

/-! # Where the heuristic agrees with the scan

In a plain text the two modes have the same spans, each as often, though the heuristic applies those of
the words in another order (`perm_spans_of_isPlain`). The patterns of the heuristic find the comments
and strings of the scan, and whatever else starts between the delimiters of a plain text is outside of
them by the counts of the heuristic if it is so by the scan.
-/

namespace KotlinHighlight

namespace Heuristic

open Text (IsPlain occurs slashes lastLine)

theorem not_occurs_take {part text : Text} (absent : occurs part text = false) (count : Nat) :
    occurs part (text.take count) = false := by
  rw [Bool.eq_false_iff, Ne, Text.occurs_iff] at absent ⊢
  exact fun inside => absent (inside.trans (List.take_prefix count text).isInfix)

/-- Without a block comment a comment is left open by two slashes in the last line. -/
theorem leavesCommentOpen_take {text : Text} (absent : occurs ['/', '*'] text = false) (count : Nat) :
    leavesCommentOpen (text.take count) = occurs slashes (lastLine (text.take count)) := by
  rw [leavesCommentOpen, not_occurs_take absent]
  exact Bool.or_false _

theorem countQuotes_eq_count {before : Text} (absent : '\\' ∉ before) {previous : Option Char}
    (plain : previous ≠ some '\\') : countQuotes previous before = before.count '"' := by
  induction before generalizing previous with
  | nil => rfl
  | cons c rest ih =>
    rw [List.mem_cons, not_or] at absent
    rw [countQuotes, ih absent.2 fun same => absent.1 (Option.some.inj same).symm, List.count_cons]
    simp only [beq_iff_eq, plain, ne_eq, not_false_eq_true, and_true]

theorem leavesStringOpen_take {text : Text} (absent : '\\' ∉ text) (count : Nat) :
    leavesStringOpen (text.take count) = ((text.take count).count '"' % 2 == 1) := by
  have start : none ≠ some '\\' := nofun
  rw [leavesStringOpen, countQuotes_eq_count (fun member => absent (List.mem_of_mem_take member)) start]

end Heuristic

namespace Highlight

open Heuristic
open Text (IsPlain)

section Plain

variable {text : Text} (plain : IsPlain text)
include plain

/-- Between the delimiters of a plain text a match is outside of the regions if the heuristic says
so. -/
theorem outside_eq_filter {accepts : Char → Bool} (opensNone : OpensNone accepts)
    (unbroken : ∀ c, Text.isLineBreak c = true → accepts c = false) {pattern : Pattern}
    (within : pattern.Within accepts) (category : Category) :
    (pattern.stretches text).filter
        (HeuristicPass.admits ⟨pattern, category, true, true⟩ text ·.start) =
      outside pattern text := by
  apply List.filter_congr
  intro stretch member
  obtain ⟨c, here, accepted⟩ := (Option.any_eq_true _ _).mp (Pattern.head_of_within member within)
  have other : ∀ d, accepts d = false → c ≠ d := by
    rintro d refused rfl
    exact Bool.false_ne_true (refused.symm.trans accepted)
  have goesOn : Text.isLineBreak c = false :=
    Bool.eq_false_iff.mpr fun breaks => other c (unbroken c breaks) rfl
  rw [Text.any_holds_eq plain.walk here (other '/' opensNone.1) (other '"' opensNone.2.1) goesOn,
    HeuristicPass.admits, leavesCommentOpen_take plain.blockOpener,
    leavesStringOpen_take plain.backslash, Bool.true_and, Bool.true_and, Bool.not_or]

/-- A pass over the regions of a plain text marks what it has of line comments and of strings. -/
theorem regionPass_of_isPlain (palette : Palette) (category : Category) (marked : List RegionKind)
    (kind : RegionKind) (strings : marked.contains .string = (RegionKind.string == kind))
    (comments : marked.contains .lineComment = (RegionKind.lineComment == kind)) :
    ((Region.scan text).filter (marked.contains ·.kind)).map (·.span palette category) =
      (((Region.scan text).filter (·.kind == kind)).map stretchOf).map (·.span palette category) := by
  rw [List.map_map]
  refine congrArg (List.map _) (List.filter_congr fun region member => ?_)
  rcases Text.kind_of_walk plain.walk 0 region member with one | other
  · rw [one, strings]
  · rw [other, comments]

theorem filter_kind_of_isPlain (kind : RegionKind) (notString : kind ≠ .string)
    (notComment : kind ≠ .lineComment) : (Region.scan text).filter (·.kind == kind) = [] := by
  rw [List.filter_eq_nil_iff]
  intro region member same
  rw [beq_iff_eq] at same
  rcases Text.kind_of_walk plain.walk 0 region member with one | other
  · exact notString (same.symm.trans one)
  · exact notComment (same.symm.trans other)

/-- The regions of a plain text are what the patterns for line comments and strings find. -/
theorem regionSpans_of_isPlain (palette : Palette) :
    regionSpans palette (Region.scan text) =
      (lineComment.stretches text).map (·.span palette .comment) ++
        (string.stretches text).map (·.span palette .string) := by
  have comments : lineComment.stretches text =
      ((Region.scan text).filter (·.kind == .lineComment)).map stretchOf :=
    lineComment_of_walk plain.walk 0 none
  have strings : string.stretches text =
      ((Region.scan text).filter (·.kind == .string)).map stretchOf :=
    string_of_walk plain.walk 0 none
  rw [comments, strings, regionSpans, regionPasses, List.flatMap_cons, List.flatMap_cons,
    List.flatMap_cons, List.flatMap_cons, List.flatMap_nil]
  dsimp only
  rw [regionPass_of_isPlain plain palette .comment [.lineComment] .lineComment rfl rfl,
    regionPass_of_isPlain plain palette .comment [.blockComment] .blockComment rfl rfl,
    regionPass_of_isPlain plain palette .string [.string, .character] .string rfl rfl,
    regionPass_of_isPlain plain palette .string [.rawString] .rawString rfl rfl,
    filter_kind_of_isPlain plain .blockComment (by decide) (by decide),
    filter_kind_of_isPlain plain .rawString (by decide) (by decide)]
  simp only [List.map_nil, List.nil_append, List.append_nil]

/-- No string of a plain text starts where the heuristic finds a comment open. -/
theorem admits_string {stretch : Stretch} (member : stretch ∈ string.stretches text) :
    HeuristicPass.admits ⟨string, .string, true, false⟩ text stretch.start = true := by
  obtain ⟨c, here, quote⟩ := (Option.any_eq_true _ _).mp (Pattern.head_of_opens member opens_string)
  obtain rfl := beq_iff_eq.mp quote
  rw [HeuristicPass.admits, leavesCommentOpen_take plain.blockOpener,
    Text.noSlashes_before_quote plain.walk here]
  rfl

/-- In a plain text the matches of a word that the heuristic keeps are those outside of the regions. -/
theorem admits_word {table : Category × List String} (known : table ∈ Vocabulary.tables)
    {word : String} (inTable : word ∈ table.2) :
    ((Vocabulary.pattern [word]).stretches text).filter
        (HeuristicPass.admits ⟨Vocabulary.pattern [word], table.1, true, true⟩ text ·.start) =
      outside (Vocabulary.pattern [word]) text := by
  have number : (Number.pattern, Category.number) ∈ codePasses := List.mem_cons_self
  obtain ⟨accepts, words, unbroken, opensNone, -⟩ := exists_within_of_mem_codePasses number
  have chosen : [word] ⊆ table.2 := List.cons_subset.mpr ⟨inTable, List.nil_subset _⟩
  have within := Vocabulary.within_pattern_of_subset known chosen
  exact outside_eq_filter plain opensNone unbroken (within.mono words) table.1

/-- In a plain text the heuristic finds the regions of the scan, then the numbers outside of them, and
then the words outside of them one by one. -/
theorem heuristic_of_isPlain (palette : Palette) :
    heuristic palette text = regionSpans palette (Region.scan text) ++
      ((outside Number.pattern text).map (·.span palette .number) ++
        Vocabulary.tables.flatMap fun table => table.2.flatMap fun word =>
          (outside (Vocabulary.pattern [word]) text).map (·.span palette table.1)) := by
  have all : ∀ pattern category stretch, stretch ∈ Pattern.stretches pattern text →
      HeuristicPass.admits ⟨pattern, category, false, false⟩ text stretch.start = true :=
    fun _ _ _ _ => rfl
  have noBlock : blockComment.stretches text = [] :=
    Pattern.stretches_of_not_occurs _ plain.blockOpener
  have noRaw : rawString.stretches text = [] := Pattern.stretches_of_not_occurs _ plain.rawQuotes
  have number : (Number.pattern, Category.number) ∈ codePasses := List.mem_cons_self
  obtain ⟨accepts, -, unbroken, opensNone, within⟩ := exists_within_of_mem_codePasses number
  have numbers := outside_eq_filter plain opensNone unbroken within .number
  rw [regionSpans_of_isPlain plain, heuristic, heuristicPasses, List.flatMap_append,
    List.flatMap_cons, List.flatMap_cons, List.flatMap_cons, List.flatMap_cons, List.flatMap_cons,
    List.flatMap_nil]
  dsimp only
  rw [List.filter_eq_self.mpr (all _ _), noBlock, noRaw,
    List.filter_eq_self.mpr fun _ => admits_string plain, numbers, List.flatMap_assoc]
  simp only [List.filter_nil, List.map_nil, List.nil_append, List.append_nil, List.append_assoc]
  congr 3
  apply List.flatMap_congr
  intro table known
  rw [List.flatMap_map]
  exact List.flatMap_congr fun word inTable =>
    congrArg (List.map _) (admits_word plain known inTable)

end Plain

/-- Outside of the regions a table of words has the same matches if they are searched one by one. -/
theorem perm_outside_pattern {table : Category × List String} (known : table ∈ Vocabulary.tables)
    (palette : Palette) (text : Text) :
    ((outside (Vocabulary.pattern table.2) text).map (·.span palette table.1)).Perm
      (table.2.flatMap fun word =>
        (outside (Vocabulary.pattern [word]) text).map (·.span palette table.1)) := by
  have together := Vocabulary.perm_stretches_pattern (Vocabulary.nodup_of_mem_tables table known)
    (Vocabulary.isWord_of_mem_tables table known) text
  have kept := (together.filter fun stretch =>
    !(Region.scan text).any (·.holds stretch.start)).map (·.span palette table.1)
  rw [List.filter_flatMap, List.map_flatMap] at kept
  exact kept

/-- In a plain text the two modes have the same spans, each as often. -/
theorem perm_spans_of_isPlain (palette : Palette) {text : Text} (plain : IsPlain text) :
    (spans .scan palette text).Perm (spans .heuristic palette text) := by
  rw [spans, spans, heuristic_of_isPlain plain, scan_eq_assembled, assembled, codePasses,
    List.flatMap_cons, List.flatMap_map]
  refine .append_left _ (.append_left _ ?_)
  exact List.Perm.flatMap_left _ fun table known => perm_outside_pattern known palette text

/-- Words in a string and in a comment are no words in either mode. -/
theorem perm_spans_of_words :
    let text := "var s = \"is\" // in\rdo".toList
    (spans .scan .default text).Perm (spans .heuristic .default text) := by
  intro text
  apply perm_spans_of_isPlain
  exact ⟨⟨by decide, by decide, by decide, by decide⟩, by decide⟩

end Highlight

end KotlinHighlight
