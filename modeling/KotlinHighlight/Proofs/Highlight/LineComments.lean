import KotlinHighlight.Proofs.Heuristic.Regions
import KotlinHighlight.Proofs.Vocabulary.Search

/-! # Line comments of the heuristic

The heuristic finds line comments with a pattern, and keeps all other passes out of them with a guard
that looks for two slashes in the last line before a position. The two agree: the slashes are there
exactly if a comment that the pattern finds has them and goes on to the position
(`slashes_before_iff`). So no span of another category starts in a line comment
(`not_starts_in_lineComment`).
-/

namespace KotlinHighlight

/-- The part of a text that a span stands on. -/
def Span.part (text : Text) (span : Span) : Text :=
  (text.drop span.start.toNat).take span.length.toNat

namespace Text

theorem lastLine_suffix (text : Text) : lastLine text <:+ text := by
  rw [lastLine, ← List.reverse_prefix, List.reverse_reverse]
  exact List.takeWhile_prefix _

theorem unbroken_of_mem_lastLine {text : Text} {c : Char} (member : c ∈ lastLine text) :
    isLineBreak c = false := by
  rw [lastLine, List.mem_reverse] at member
  simpa using List.mem_takeWhile_imp member

theorem unbroken_of_mem_firstLine {text : Text} {c : Char} (member : c ∈ firstLine text) :
    isLineBreak c = false := by
  simpa using List.mem_takeWhile_imp member

theorem unbroken_slashes : ∀ c ∈ slashes, isLineBreak c = false := by
  intro c member
  obtain rfl | rfl := List.mem_pair.mp member
  · rfl
  · rfl

section Unbroken

variable {line : Text} (unbroken : ∀ c ∈ line, isLineBreak c = false)
include unbroken

theorem firstLine_append (rest : Text) : firstLine (line ++ rest) = line ++ firstLine rest :=
  List.takeWhile_append_of_pos fun c member => by rw [unbroken c member]; rfl

theorem lastLine_append (before : Text) : lastLine (before ++ line) = lastLine before ++ line := by
  rw [lastLine, List.reverse_append, List.takeWhile_append_of_pos, List.reverse_append,
    List.reverse_reverse, lastLine]
  intro c member
  rw [unbroken c (List.mem_reverse.mp member)]
  rfl

end Unbroken

theorem length_firstLine_of_slashes {text : Text} (opens : slashes <+: text) :
    slashes.length ≤ (firstLine text).length := by
  obtain ⟨rest, rfl⟩ := opens
  rw [firstLine_append unbroken_slashes, List.length_append]
  exact Nat.le_add_right _ _

theorem firstLine_drop {text : Text} {distance : Nat} (within : distance ≤ (firstLine text).length) :
    firstLine (text.drop distance) = (firstLine text).drop distance := by
  have unbroken : ∀ c ∈ (firstLine text).drop distance, isLineBreak c = false :=
    fun c member => unbroken_of_mem_firstLine (List.mem_of_mem_drop member)
  have split : text = firstLine text ++ text.dropWhile (!isLineBreak ·) :=
    List.takeWhile_append_dropWhile.symm
  have ended : firstLine (text.dropWhile (!isLineBreak ·)) = [] := by
    have whole := congrArg firstLine split
    rw [firstLine_append fun c member => unbroken_of_mem_firstLine member] at whole
    exact List.self_eq_append_right.mp whole
  conv_lhs => rw [split]
  rw [List.drop_append_of_le_length within, firstLine_append unbroken, ended, List.append_nil]

/-- Two slashes stand in the last line before a position exactly if they stand somewhere before it and
their line goes on to it. -/
theorem occurs_slashes_lastLine_iff {text : Text} {position : Nat} (within : position ≤ text.length) :
    occurs slashes (lastLine (text.take position)) = true ↔
      ∃ start, slashes <+: text.drop start ∧ start + 2 ≤ position ∧
        position ≤ start + (firstLine (text.drop start)).length := by
  rw [occurs_iff]
  constructor
  · rintro ⟨earlier, later, inLine⟩
    obtain ⟨before, split⟩ := lastLine_suffix (text.take position)
    have length := congrArg List.length split
    rw [← inLine, List.length_append, List.length_append, List.length_append,
      List.length_take_of_le within] at length
    have unbroken : ∀ c ∈ slashes ++ later, isLineBreak c = false := by
      intro c member
      have inLast : c ∈ lastLine (text.take position) := by
        rw [← inLine, List.append_assoc]
        exact List.mem_append_right earlier member
      exact unbroken_of_mem_lastLine inLast
    have ahead : text.drop (before ++ earlier).length = slashes ++ later ++ text.drop position := by
      have whole : text = before ++ earlier ++ (slashes ++ later ++ text.drop position) := by
        conv_lhs => rw [← List.take_append_drop position text, ← split, ← inLine]
        simp only [List.append_assoc]
      conv_lhs => rw [whole]
      exact List.drop_left
    have two : slashes.length = 2 := rfl
    refine ⟨(before ++ earlier).length, ?_, ?_, ?_⟩
    · rw [ahead, List.append_assoc]
      exact List.prefix_append _ _
    · rw [List.length_append]
      omega
    · rw [ahead, firstLine_append unbroken, List.length_append, List.length_append,
        List.length_append]
      omega
  · rintro ⟨start, opens, behind, upTo⟩
    have later : start ≤ position := by omega
    have split : text.take position =
        text.take start ++ (text.drop start).take (position - start) := by
      rw [← List.take_add, Nat.add_sub_cancel' later]
    have inLine : (text.drop start).take (position - start) <+: firstLine (text.drop start) :=
      List.prefix_of_prefix_length_le (List.take_prefix _ _) (List.takeWhile_prefix _)
        ((List.length_take_le _ _).trans (Nat.sub_le_iff_le_add'.mpr upTo))
    rw [split, lastLine_append fun c member => unbroken_of_mem_firstLine (inLine.subset member)]
    have shorter : slashes.length ≤ position - start := Nat.le_sub_of_add_le' behind
    exact ((List.prefix_take_iff.mpr ⟨opens, shorter⟩).isInfix).trans
      (List.suffix_append _ _).isInfix

end Text

namespace Heuristic

open Pattern
open Text (slashes firstLine)

/-- Where two slashes stand the pattern for line comments takes them and the rest of their line. -/
theorem matchEnd?_of_slashes {text : Text} {start : Nat} (opens : slashes <+: text.drop start) :
    lineComment.matchEnd? (text.cursorAt start) =
      some (start + (firstLine (text.drop start)).length) := by
  obtain ⟨rest, ahead⟩ := opens
  rw [Text.cursorAt, ← ahead, Text.firstLine_append Text.unbroken_slashes, List.length_append,
    ← Nat.add_assoc]
  exact matchEnd?_lineComment start _ rest

theorem slashes_of_mem_stretches {text : Text} {stretch : Stretch}
    (member : stretch ∈ lineComment.stretches text) :
    slashes <+: text.drop stretch.start ∧
      stretch.stop = stretch.start + (firstLine (text.drop stretch.start)).length := by
  have opens : slashes <+: text.drop stretch.start := opener_of_mem_stretches member
  obtain ⟨-, -, stop⟩ := matchEnd?_of_mem_stretches member
  rw [matchEnd?_of_slashes opens, Option.some_inj] at stop
  exact ⟨opens, stop.symm⟩

theorem slash_of_mem_stretches {text : Text} {stretch : Stretch}
    (member : stretch ∈ lineComment.stretches text) {position : Nat}
    (since : stretch.start ≤ position) (upTo : position < stretch.start + 2) :
    text[position]? = some '/' := by
  obtain ⟨⟨rest, ahead⟩, -⟩ := slashes_of_mem_stretches member
  have place : position = stretch.start + (position - stretch.start) := by omega
  have either : position - stretch.start = 0 ∨ position - stretch.start = 1 := by omega
  rw [place, ← List.getElem?_drop, ← ahead]
  rcases either with same | next
  · rw [same]
    rfl
  · rw [next]
    rfl

/-- Two slashes are those of a line comment or stand in one that stops where their line does. -/
theorem exists_lineComment_of_slashes {text : Text} {start : Nat}
    (opens : slashes <+: text.drop start) :
    ∃ stretch ∈ lineComment.stretches text, stretch.start ≤ start ∧
      stretch.stop = start + (firstLine (text.drop start)).length := by
  have two : slashes.length = 2 := rfl
  have line := Text.length_firstLine_of_slashes opens
  have room := opens.length_le
  rw [List.length_drop] at room
  rcases mem_stretches_or_covered (by omega) (matchEnd?_of_slashes opens) (by omega) with
    found | ⟨stretch, member, before, after⟩
  · exact ⟨_, found, Nat.le_refl _, rfl⟩
  · obtain ⟨-, stop⟩ := slashes_of_mem_stretches member
    have further : start = stretch.start + (start - stretch.start) := by omega
    have inLine : start - stretch.start ≤ (firstLine (text.drop stretch.start)).length := by omega
    have rest := Text.firstLine_drop inLine
    rw [List.drop_drop, ← further] at rest
    refine ⟨stretch, member, Nat.le_of_lt before, ?_⟩
    rw [rest, List.length_drop]
    omega

/-- The guard finds slashes in the last line before a position exactly if the pattern finds a line
comment whose slashes stand before it and that goes on to it. -/
theorem slashes_before_iff {text : Text} {position : Nat} (within : position ≤ text.length) :
    Text.occurs slashes (Text.lastLine (text.take position)) = true ↔
      ∃ stretch ∈ lineComment.stretches text,
        stretch.start + 2 ≤ position ∧ position ≤ stretch.stop := by
  rw [Text.occurs_slashes_lastLine_iff within]
  constructor
  · rintro ⟨start, opens, behind, upTo⟩
    obtain ⟨stretch, member, before, stop⟩ := exists_lineComment_of_slashes opens
    exact ⟨stretch, member, by omega, by omega⟩
  · rintro ⟨stretch, member, behind, upTo⟩
    obtain ⟨opens, stop⟩ := slashes_of_mem_stretches member
    exact ⟨stretch.start, opens, behind, stop ▸ upTo⟩

end Heuristic

namespace Highlight

open Text (slashes)

theorem part_span (text : Text) (palette : Palette) (category : Category) (stretch : Stretch) :
    (stretch.span palette category).part text =
      (text.drop stretch.start).take (stretch.stop - stretch.start) := by
  rw [Span.part, Span.length, Stretch.span, Int.toNat_natCast, Int.toNat_sub]

/-- A block comment does not start with two slashes. -/
theorem not_slashes_of_blockComment {text : Text} {stretch : Stretch}
    (found : stretch ∈ Heuristic.blockComment.stretches text) :
    ¬slashes <+: text.drop stretch.start := by
  rintro ⟨rest, ahead⟩
  obtain ⟨others, opener⟩ := Pattern.opener_of_mem_stretches found
  have star : slashes ++ rest = ['/', '*'] ++ others := ahead.trans opener.symm
  exact absurd (List.cons.inj (List.cons.inj star).2).1 (by decide)

/-- The line comments among the spans are the comments that start with two slashes. -/
theorem mem_lineComments_iff {palette : Palette} {text : Text} {span : Span} :
    span ∈ (Heuristic.lineComment.stretches text).map (·.span palette .comment) ↔
      span ∈ spans .heuristic palette text ∧ span.category = .comment ∧
        slashes <+: span.part text := by
  constructor
  · intro member
    obtain ⟨stretch, found, rfl⟩ := List.mem_map.mp member
    obtain ⟨opens, stop⟩ := Heuristic.slashes_of_mem_stretches found
    have long : slashes.length ≤ stretch.stop - stretch.start := by
      rw [stop, Nat.add_sub_cancel_left]
      exact Text.length_firstLine_of_slashes opens
    refine ⟨?_, rfl, by rw [part_span, List.prefix_take_iff]; exact ⟨opens, long⟩⟩
    refine List.mem_flatMap.mpr ⟨⟨Heuristic.lineComment, .comment, false, false⟩, ?_, ?_⟩
    · exact List.mem_append_left _ List.mem_cons_self
    · exact List.mem_map_of_mem (List.mem_filter.mpr ⟨found, rfl⟩)
  · rintro ⟨member, comment, opens⟩
    obtain ⟨pass, known, inPass⟩ := List.mem_flatMap.mp member
    obtain ⟨stretch, kept, rfl⟩ := List.mem_map.mp inPass
    have found := List.mem_of_mem_filter kept
    rw [part_span, List.prefix_take_iff] at opens
    rcases cases_of_mem_heuristicPasses known with rfl | rfl | ⟨other, -⟩
    · exact List.mem_map_of_mem found
    · exact absurd opens.1 (not_slashes_of_blockComment found)
    · exact absurd comment other

/-- The line-comment pass of the heuristic marks the comments that start with two slashes, and in none
of them a span of another category starts. -/
theorem not_starts_in_lineComment (palette : Palette) (text : Text) :
    (∀ span, span ∈ (Heuristic.lineComment.stretches text).map (·.span palette .comment) ↔
      span ∈ spans .heuristic palette text ∧ span.category = .comment ∧
        slashes <+: span.part text) ∧
    ∀ comment ∈ (Heuristic.lineComment.stretches text).map (·.span palette .comment),
      ∀ span ∈ spans .heuristic palette text, span.category ≠ .comment →
        ¬(comment.start ≤ span.start ∧ span.start < comment.stop) := by
  refine ⟨fun _ => mem_lineComments_iff, ?_⟩
  rintro comment isComment span member other ⟨since, upTo⟩
  obtain ⟨outer, found, rfl⟩ := List.mem_map.mp isComment
  obtain ⟨pass, known, inPass⟩ := List.mem_flatMap.mp member
  obtain ⟨stretch, kept, rfl⟩ := List.mem_map.mp inPass
  obtain ⟨inText, admitted⟩ := List.mem_filter.mp kept
  have after : outer.start ≤ stretch.start := Int.ofNat_le.mp since
  have before : stretch.start < outer.stop := Int.ofNat_lt.mp upTo
  obtain ⟨guarded, starts⟩ := guarded_of_mem_heuristicPasses known other
  have noSlash := starts inText
  have bounds := Pattern.mem_stretches_bounds inText
  rcases Nat.lt_or_ge stretch.start (outer.start + 2) with atSlashes | behind
  · -- A guarded pass takes no slash as its first character.
    rw [Heuristic.slash_of_mem_stretches found after atSlashes] at noSlash
    exact Bool.false_ne_true noSlash
  · -- Behind the slashes the guard finds them.
    have opened : Heuristic.leavesCommentOpen (text.take stretch.start) = true := by
      rw [Heuristic.leavesCommentOpen, Bool.or_eq_true]
      exact .inl ((Heuristic.slashes_before_iff (by omega)).mpr
        ⟨outer, found, behind, Nat.le_of_lt before⟩)
    rw [HeuristicPass.admits, guarded, opened] at admitted
    exact Bool.false_ne_true admitted

end Highlight

end KotlinHighlight
