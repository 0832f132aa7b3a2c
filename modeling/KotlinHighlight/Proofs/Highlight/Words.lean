import KotlinHighlight.Proofs.Highlight.Outside
import KotlinHighlight.Proofs.Vocabulary.Search

/-! # Whole words

The known words of a table that are marked are the runs of word characters that spell one of them,
outside of all regions (`word_spans_iff_runs`). What is marked in the code is a whole word, except for
a number that ends in its point: the boundary there has a word character after it
(`word_after_span_iff`).
-/

namespace KotlinHighlight

open Unicode (isWord)

def Text.wordBefore (text : Text) (position : Int) : Bool :=
  (text.take position.toNat).getLast?.any isWord

def Text.wordAfter (text : Text) (position : Int) : Bool :=
  (text.drop position.toNat).head?.any isWord

/-- Whether a part of a text is a run of word characters, and no word character stands next to it. -/
structure Text.StandsAlone (before run after : Text) : Prop where
  nonempty : run ≠ []
  words : ∀ c ∈ run, isWord c = true
  before : before.getLast?.any isWord = false
  after : after.head?.any isWord = false

namespace Cursor

variable {before run after : Text}

/-- A run that stands alone starts at a boundary. -/
theorem atBoundary_of_standsAlone (alone : Text.StandsAlone before run after) :
    ((before ++ (run ++ after)).cursorAt before.length).atBoundary = true := by
  obtain ⟨c, rest, rfl⟩ := List.exists_cons_of_ne_nil alone.nonempty
  have word := alone.words c List.mem_cons_self
  simp [cursorAt_length, atBoundary, alone.before, word]

theorem run_of_standsAlone (alone : Text.StandsAlone before run after) :
    ((before ++ (run ++ after)).cursorAt before.length).run isWord = run := by
  have stops : after.takeWhile isWord = [] := by
    have noWord := alone.after
    cases after with
    | nil => rfl
    | cons c rest => exact List.takeWhile_cons_of_neg (Bool.eq_false_iff.mp noWord)
  rw [cursorAt_length, Cursor.run, List.takeWhile_append_of_pos alone.words, stops, List.append_nil]

theorem standsAlone_run {text : Text} {start : Nat} (starts : (text.cursorAt start).atBoundary = true)
    (nonempty : (text.cursorAt start).run isWord ≠ []) :
    Text.StandsAlone (text.take start) ((text.cursorAt start).run isWord)
      ((text.drop start).dropWhile isWord) where
  nonempty := nonempty
  words _ member := List.mem_takeWhile_imp member
  before := before_of_atBoundary starts nonempty
  after := any_head?_dropWhile isWord (text.drop start)

/-- What is read between two boundaries has no word character before it if it starts with one, and
one after it unless it ends in one. -/
theorem Reads.beside {text part : Text} {start : Nat} {last : Cursor} (within : start ≤ text.length)
    (reads : (text.cursorAt start).Reads part last) (first : part.head?.any isWord = true)
    (starts : (text.cursorAt start).atBoundary = true) (stops : last.atBoundary = true) :
    text.wordBefore start = false ∧ (text.take last.position).getLast? = part.getLast? ∧
      text.wordAfter last.position = !part.getLast?.any isWord := by
  cases part with
  | nil => exact absurd first Bool.false_ne_true
  | cons c rest =>
    have there := reads_cursorAt within reads.ahead
    obtain rfl := reads.unique there
    have before : (text.take (start + (c :: rest).length)).getLast? = (c :: rest).getLast? := by
      refine reads.before.trans ?_
      rw [List.getLast?_eq_some_getLast (List.cons_ne_nil c rest), Option.some_or]
    have run : (text.cursorAt start).run isWord ≠ [] := by
      have word : isWord c = true := first
      rw [reads.run_of_atBoundary (List.cons_ne_nil c rest) stops, List.takeWhile_cons_of_pos word]
      exact List.cons_ne_nil _ _
    refine ⟨before_of_atBoundary starts run, before, ?_⟩
    rw [← before]
    rw [atBoundary, bne_iff_ne] at stops
    exact Bool.eq_not.mpr stops.symm

end Cursor

namespace Number

/-- After a number stands a word character only if the number ends in its point. -/
theorem beside_of_mem_stretches {text : Text} {stretch : Stretch}
    (member : stretch ∈ pattern.stretches text) :
    text.wordBefore stretch.start = false ∧
      (text.wordAfter stretch.stop = true ↔ (text.take stretch.stop).getLast? = some '.') := by
  obtain ⟨-, within, last, found, stop⟩ := Pattern.mem_stretches member
  obtain ⟨part, literal, reads, starts, stops⟩ := mem_ends_pattern_iff.mp found
  obtain ⟨digit, rest, rfl, isDigit⟩ := literal.exists_cons
  have first := Unicode.isWord_of_isDecimal isDigit
  obtain ⟨before, last?, after⟩ := reads.beside within first starts stops
  rw [stop] at last? after
  refine ⟨before, ?_⟩
  have wordOrPoint := literal.last
  rw [after, last?]
  cases found : (digit :: rest).getLast? with
  | none => exact absurd (List.getLast?_eq_none_iff.mp found) (List.cons_ne_nil digit rest)
  | some c =>
    rw [found, Option.all_some, Bool.or_eq_true, beq_iff_eq] at wordOrPoint
    rw [Option.any_some, Bool.not_eq_true', Option.some.injEq]
    constructor
    · intro noWord
      exact wordOrPoint.resolve_left (Bool.eq_false_iff.mp noWord)
    · rintro rfl
      decide

end Number

namespace Vocabulary

/-- The matches of known words are the runs that stand alone and spell one of them. -/
theorem mem_stretches_iff_standsAlone {words : List String}
    (all : ∀ word ∈ words, word ≠ "" ∧ word.toList.all isWord = true) {text : Text}
    {stretch : Stretch} :
    stretch ∈ (pattern words).stretches text ↔ ∃ before run after,
      text = before ++ (run ++ after) ∧ Text.StandsAlone before run after ∧
        String.ofList run ∈ words ∧ stretch = ⟨before.length, before.length + run.length⟩ := by
  rw [mem_stretches_pattern_iff all]
  constructor
  · rintro ⟨starts, within, word, known, run, stop⟩
    have nonempty : (text.cursorAt stretch.start).run isWord ≠ [] := by
      rw [run]
      simpa using (all word known).1
    refine ⟨_, _, _, ?_, Cursor.standsAlone_run starts nonempty, ?_, ?_⟩
    · exact (List.take_append_drop stretch.start text).symm.trans
        (congrArg _ List.takeWhile_append_dropWhile.symm)
    · rwa [run, String.ofList_toList]
    · rw [run, List.length_take_of_le (Nat.le_of_lt within), ← stop]
  · rintro ⟨before, run, after, rfl, alone, known, rfl⟩
    have room := List.length_pos_iff.mpr alone.nonempty
    refine ⟨Cursor.atBoundary_of_standsAlone alone, ?_, _, known, ?_, ?_⟩
    · simp only [List.length_append]
      omega
    · rw [String.toList_ofList]
      exact Cursor.run_of_standsAlone alone
    · rw [String.toList_ofList]

/-- Next to a known word stands no word character. -/
theorem beside_of_mem_stretches {words : List String}
    (all : ∀ word ∈ words, word ≠ "" ∧ word.toList.all isWord = true) {text : Text}
    {stretch : Stretch} (member : stretch ∈ (pattern words).stretches text) :
    text.wordBefore stretch.start = false ∧ text.wordAfter stretch.stop = false := by
  obtain ⟨before, run, after, rfl, alone, -, rfl⟩ := (mem_stretches_iff_standsAlone all).mp member
  constructor
  · rw [Text.wordBefore, Int.toNat_natCast, List.take_left]
    exact alone.before
  · rw [Text.wordAfter, Int.toNat_natCast, ← List.length_append, ← List.append_assoc, List.drop_left]
    exact alone.after

end Vocabulary

namespace Highlight

open Vocabulary (tables)

section Table

variable {table : Category × List String} (known : table ∈ tables)
include known

/-- In the heuristic each word of a table has a pass of its own. -/
theorem filter_category_heuristicPasses :
    heuristicPasses.filter (·.category = table.1) =
      table.2.map fun word => ⟨Vocabulary.pattern [word], table.1, true, true⟩ := by
  have categories : ∀ category ∈ [Category.comment, .string, .number],
      category ∉ tables.map (·.1) := by
    decide
  have distinct : (tables.map (·.1)).Nodup := by decide
  rw [heuristicPasses, List.filter_append, List.filter_eq_nil_iff.mpr, List.nil_append]
  · apply filter_category_flatMap distinct ?_ known
    intro other _ pass member
    obtain ⟨word, -, rfl⟩ := List.mem_map.mp member
    rfl
  · intro pass fixed
    rw [decide_eq_true_eq]
    intro same
    refine categories pass.category ?_ (List.mem_map.mpr ⟨table, known, same.symm⟩)
    simp only [List.mem_cons, List.not_mem_nil, or_false] at fixed
    rcases fixed with rfl | rfl | rfl | rfl | rfl <;> decide

/-- The spans of the known words of a table are, from left to right, the runs of word characters that
stand alone, spell one of the words and start in no region. Searched one by one as in the heuristic,
the words have the same matches as together, each of them once. -/
theorem word_spans_iff_runs (palette : Palette) (text : Text) :
    ((spans .scan palette text).filter (·.category = table.1)).Pairwise (·.start < ·.start) ∧
    (∀ span, span ∈ (spans .scan palette text).filter (·.category = table.1) ↔
      ∃ before run after, text = before ++ (run ++ after) ∧ Text.StandsAlone before run after ∧
        String.ofList run ∈ table.2 ∧
        (∀ region ∈ Region.scan text, region.holds before.length = false) ∧
        span = ⟨before.length, before.length + run.length, table.1, palette.color table.1⟩) ∧
    ((Vocabulary.pattern table.2).stretches text).Nodup ∧
    ((Vocabulary.pattern table.2).stretches text).Perm
      ((heuristicPasses.filter (·.category = table.1)).flatMap (·.pattern.stretches text)) := by
  have all := Vocabulary.isWord_of_mem_tables table known
  have pass : (Vocabulary.pattern table.2, table.1) ∈ codePasses :=
    List.mem_cons_of_mem _ (List.mem_map.mpr ⟨table, known, rfl⟩)
  have marked := filter_category_scan palette text pass
  rw [spans, marked]
  refine ⟨?_, ?_, Pattern.nodup_stretches _ _, ?_⟩
  · rw [List.pairwise_map]
    refine ((Pattern.pairwise_stretches _ text).filter _).imp_of_mem ?_
    intro earlier later one _ before
    have forward := (Pattern.mem_stretches_bounds (List.mem_of_mem_filter one)).1
    exact Int.ofNat_lt.mpr (Nat.lt_of_lt_of_le forward before)
  · intro span
    simp only [List.mem_map, outside, List.mem_filter, Vocabulary.mem_stretches_iff_standsAlone all,
      Bool.not_eq_true', List.any_eq_false, Bool.not_eq_true]
    constructor
    · rintro ⟨_, ⟨⟨before, run, after, split, alone, spelled, rfl⟩, inCode⟩, rfl⟩
      exact ⟨before, run, after, split, alone, spelled, inCode, rfl⟩
    · rintro ⟨before, run, after, split, alone, spelled, inCode, rfl⟩
      exact ⟨_, ⟨⟨before, run, after, split, alone, spelled, rfl⟩, inCode⟩, rfl⟩
  · rw [filter_category_heuristicPasses known, List.flatMap_map]
    exact Vocabulary.perm_stretches_pattern (Vocabulary.nodup_of_mem_tables table known) all text

end Table

/-- A keyword that starts like another one is marked as the longer one. -/
theorem word_spans_iff_runs_of_interface :
    let text : Text := "in interface // in".toList
    (.keyword, Vocabulary.keywords) ∈ tables ∧
    ⟨3, 12, .keyword, Palette.default.color .keyword⟩ ∈ spans .scan .default text := by
  intro text
  have known : (.keyword, Vocabulary.keywords) ∈ tables := List.mem_cons_self
  obtain ⟨-, marked, -, -⟩ := word_spans_iff_runs known .default text
  have alone : Text.StandsAlone "in ".toList "interface".toList " // in".toList :=
    ⟨by decide, List.all_eq_true.mp (by decide), by decide, by decide⟩
  have found := (marked ⟨3, 12, .keyword, Palette.default.color .keyword⟩).mpr
    ⟨_, _, _, by decide, alone, by decide, by decide, by decide⟩
  exact ⟨known, List.mem_of_mem_filter found⟩

/-- The categories of what is marked in the code. -/
def codeCategories : List Category :=
  [.number, .keyword, .builtinFunction, .type]

/-- In either mode what is marked in the code is a match for a number or for known words. -/
theorem exists_stretch_of_mem_spans {mode : Containment} {palette : Palette} {text : Text}
    {span : Span} (member : span ∈ spans mode palette text)
    (inCode : span.category ∈ codeCategories) :
    (∃ stretch ∈ Number.pattern.stretches text, stretch.span palette .number = span) ∨
    ∃ table ∈ tables, ∃ words ⊆ table.2, ∃ stretch ∈ (Vocabulary.pattern words).stretches text,
      stretch.span palette table.1 = span := by
  cases mode with
  | scan =>
    rcases List.mem_append.mp member with inRegions | inPasses
    · obtain ⟨region, -, rfl⟩ := mem_regionSpans_iff.mp inRegions
      have noCode : ∀ kind : RegionKind, kind.category ∉ codeCategories := by
        intro kind
        cases kind <;> decide
      exact absurd inCode (noCode region.kind)
    · obtain ⟨pass, known, inPass⟩ := List.mem_flatMap.mp inPasses
      obtain ⟨stretch, kept, rfl⟩ := List.mem_map.mp inPass
      rcases List.mem_cons.mp known with rfl | inTables
      · exact .inl ⟨stretch, List.mem_of_mem_filter kept, rfl⟩
      · obtain ⟨table, isTable, rfl⟩ := List.mem_map.mp inTables
        exact .inr ⟨table, isTable, table.2, List.Subset.refl _, stretch,
          List.mem_of_mem_filter kept, rfl⟩
  | heuristic =>
    obtain ⟨pass, known, inPass⟩ := List.mem_flatMap.mp member
    obtain ⟨stretch, kept, rfl⟩ := List.mem_map.mp inPass
    have found := List.mem_of_mem_filter kept
    rw [heuristicPasses, List.mem_append] at known
    rcases known with fixed | inTables
    · have noComment : Category.comment ∉ codeCategories := by decide
      have noString : Category.string ∉ codeCategories := by decide
      simp only [List.mem_cons, List.not_mem_nil, or_false] at fixed
      rcases fixed with rfl | rfl | rfl | rfl | rfl
      · exact absurd inCode noComment
      · exact absurd inCode noComment
      · exact absurd inCode noString
      · exact absurd inCode noString
      · exact .inl ⟨stretch, found, rfl⟩
    · obtain ⟨table, isTable, inTable⟩ := List.mem_flatMap.mp inTables
      obtain ⟨word, isKnown, rfl⟩ := List.mem_map.mp inTable
      have chosen : [word] ⊆ table.2 := List.cons_subset.mpr ⟨isKnown, List.nil_subset _⟩
      exact .inr ⟨table, isTable, [word], chosen, stretch, found, rfl⟩

/-- In neither mode a word character stands right before a number or a known word. One stands right
after it exactly if it is a number that ends in its point. -/
theorem word_after_span_iff {mode : Containment} {palette : Palette} {text : Text} {span : Span}
    (member : span ∈ spans mode palette text) (inCode : span.category ∈ codeCategories) :
    text.wordBefore span.start = false ∧
      (text.wordAfter span.stop = true ↔
        span.category = .number ∧ (text.take span.stop.toNat).getLast? = some '.') := by
  rcases exists_stretch_of_mem_spans member inCode with number | word
  · obtain ⟨stretch, found, rfl⟩ := number
    obtain ⟨before, after⟩ := Number.beside_of_mem_stretches found
    exact ⟨before, after.trans (and_iff_right rfl).symm⟩
  · obtain ⟨table, isTable, words, chosen, stretch, found, rfl⟩ := word
    have all := Vocabulary.isWord_of_mem_tables table isTable
    obtain ⟨before, after⟩ := Vocabulary.beside_of_mem_stretches
      (fun word inWords => all word (chosen inWords)) found
    have noNumber : ∀ table ∈ tables, table.1 ≠ .number := by decide
    refine ⟨before, ?_⟩
    constructor
    · intro word
      exact absurd (after.symm.trans word) Bool.false_ne_true
    · rintro ⟨isNumber, -⟩
      exact absurd isNumber (noNumber table isTable)

/-- The fraction of a number is left out if a letter follows it, but not the point. -/
theorem word_after_span_iff_of_fraction :
    let text : Text := "1.5x".toList
    let span : Span := ⟨0, 2, .number, Palette.default.color .number⟩
    span ∈ spans .heuristic .default text ∧ span.category ∈ codeCategories ∧
    text.wordBefore span.start = false ∧ text.wordAfter span.stop = true := by
  intro text span
  have member : span ∈ spans .heuristic .default text := by decide +kernel
  have inCode : span.category ∈ codeCategories := by decide
  obtain ⟨before, after⟩ := word_after_span_iff member inCode
  exact ⟨member, inCode, before, after.mpr ⟨rfl, by decide⟩⟩

/-- The point of a call on a number is marked with the number, right before the name. -/
theorem number_span_before_name :
    let text : Text := "1.toString()".toList
    let span : Span := ⟨0, 2, .number, Palette.default.color .number⟩
    span ∈ spans .scan .default text ∧ text.wordAfter span.stop = true := by
  decide +kernel

end Highlight

end KotlinHighlight
