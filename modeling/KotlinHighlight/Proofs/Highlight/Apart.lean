import Mathlib.Data.List.Pairwise
import KotlinHighlight.Highlight
import KotlinHighlight.Proofs.Pattern.Stretches
import KotlinHighlight.Proofs.Region
import KotlinHighlight.Proofs.Vocabulary

/-! # Spans stand apart

Every span is a part of its text, and the spans of a scan do not overlap (`spans_within_and_apart`).
Regions follow each other. Numbers and words have none of the characters that open a region, so a
match that starts outside the regions stays outside. A word starts and stops at boundaries, so two
words that overlap are the same word; and no known word can be a part of a number.
-/

namespace KotlinHighlight

/-- Whether two stretches have no position in common. -/
def Stretch.Apart (first second : Stretch) : Prop :=
  first.stop ≤ second.start ∨ second.stop ≤ first.start

/-- Whether two spans have no position in common. -/
def Span.Apart (first second : Span) : Prop :=
  first.stop ≤ second.start ∨ second.stop ≤ first.start

/-- Whether a span has a position, and all its positions are in a text. -/
def Span.Within (text : Text) (span : Span) : Prop :=
  0 ≤ span.start ∧ span.start < span.stop ∧ span.stop ≤ text.length

namespace Cursor

/-- No boundary is inside a run of word characters. -/
theorem not_atBoundary_of_run (text : Text) {start position : Nat} (after : start < position)
    (inside : position < start + ((text.cursorAt start).run Unicode.isWord).length) :
    (text.cursorAt position).atBoundary = false := by
  have words : ∀ index, start ≤ index →
      index < start + ((text.cursorAt start).run Unicode.isWord).length →
      index < text.length ∧ text[index]?.any Unicode.isWord = true := by
    intro index since upTo
    change index < start + ((text.drop start).takeWhile Unicode.isWord).length at upTo
    have valid : index - start < ((text.drop start).takeWhile Unicode.isWord).length := by omega
    have word := List.mem_takeWhile_imp (List.getElem_mem valid)
    have same := (List.takeWhile_prefix Unicode.isWord).getElem valid
    have room := (List.takeWhile_prefix (l := text.drop start) Unicode.isWord).length_le
    rw [List.length_drop] at room
    rw [same, List.getElem_drop] at word
    have place : start + (index - start) = index := by omega
    refine ⟨by omega, ?_⟩
    rw [← place, List.getElem?_eq_getElem (by omega), Option.any_some]
    exact word
  obtain ⟨before, rfl⟩ : ∃ before, position = before + 1 := ⟨position - 1, by omega⟩
  obtain ⟨within, first⟩ := words before (by omega) (by omega)
  obtain ⟨-, second⟩ := words (before + 1) (by omega) inside
  rw [atBoundary_cursorAt_succ within, first, second]
  rfl

/-- Before a word that starts at a boundary stands no word character. -/
theorem before_of_atBoundary {cursor : Cursor} (starts : cursor.atBoundary = true)
    (nonempty : cursor.run Unicode.isWord ≠ []) : cursor.before.any Unicode.isWord = false := by
  obtain ⟨position, before, ahead⟩ := cursor
  cases ahead with
  | nil => exact absurd rfl nonempty
  | cons c rest =>
    by_cases word : Unicode.isWord c = true
    · simpa [atBoundary, word] using starts
    · exact absurd (List.takeWhile_cons_of_neg word) nonempty

/-- What is read after the beginning of a part. -/
theorem Reads.rest {text earlier part : Text} {start : Nat} {last : Cursor}
    (within : start ≤ text.length) (reads : (text.cursorAt start).Reads (earlier ++ part) last) :
    (text.cursorAt (start + earlier.length)).Reads part last ∧
      (text.cursorAt (start + earlier.length)).before =
        earlier.getLast?.or (text.cursorAt start).before := by
  have ahead : text.drop start = earlier ++ (part ++ last.ahead) := by
    rw [← List.append_assoc]
    exact reads.ahead
  have first := reads_cursorAt within ahead
  refine ⟨⟨?_, ?_, ?_⟩, first.before⟩
  · exact List.append_cancel_left (first.ahead.symm.trans ahead)
  · rw [reads.position, first.position, List.length_append, Nat.add_assoc]
  · rw [reads.before, first.before, List.getLast?_append, Option.or_assoc]

end Cursor

namespace Vocabulary

open Pattern
open Unicode (isDecimal isWord)

theorem run_of_mem_stretches {words : List String}
    (all : ∀ word ∈ words, word ≠ "" ∧ word.toList.all isWord = true) {text : Text}
    {stretch : Stretch} (member : stretch ∈ (pattern words).stretches text) :
    ∃ word ∈ words, (text.cursorAt stretch.start).run isWord = word.toList ∧
      stretch.stop = stretch.start + word.toList.length ∧
      (text.cursorAt stretch.start).atBoundary = true := by
  obtain ⟨-, within, last, found, stop⟩ := mem_stretches member
  obtain ⟨word, known, reads, starts, stops⟩ := mem_ends_pattern found
  obtain ⟨nonempty, wordy⟩ := all word known
  have filled : word.toList ≠ [] := by simpa using nonempty
  refine ⟨word, known, ?_, ?_, starts⟩
  · rw [reads.run_of_atBoundary filled stops, List.takeWhile_eq_self_iff]
    exact List.all_eq_true.mp wordy
  · rw [← stop, reads.position]
    rfl

/-- Words of tables that share none do not overlap. -/
theorem apart_of_mem_stretches {words others : List String}
    (all : ∀ word ∈ words, word ≠ "" ∧ word.toList.all isWord = true)
    (allOthers : ∀ word ∈ others, word ≠ "" ∧ word.toList.all isWord = true)
    (distinct : ∀ word ∈ words, word ∉ others) {text : Text} {first second : Stretch}
    (one : first ∈ (pattern words).stretches text)
    (other : second ∈ (pattern others).stretches text) : first.Apart second := by
  obtain ⟨word, known, run, stop, starts⟩ := run_of_mem_stretches all one
  obtain ⟨word', known', run', stop', starts'⟩ := run_of_mem_stretches allOthers other
  by_contra overlap
  rw [Stretch.Apart, not_or] at overlap
  rcases Nat.lt_trichotomy first.start second.start with before | same | after
  · have inside := Cursor.not_atBoundary_of_run text before (by rw [run]; omega)
    rw [inside] at starts'
    exact absurd starts' nofun
  · rw [same, run'] at run
    rw [String.toList_inj.mp run] at known'
    exact distinct word known known'
  · have inside := Cursor.not_atBoundary_of_run text after (by rw [run']; omega)
    rw [inside] at starts
    exact absurd starts nofun

end Vocabulary

namespace Number

open Pattern
open Unicode (isDecimal isWord)

/-- What follows a separator in a number is a digit among word characters, a letter of an exponent
or a suffix. -/
theorem Follows.takeWhile_isWord {text : Text} (follows : Follows text) :
    (∃ c ∈ text.takeWhile isWord, isDecimal c = true) ∨
      text.takeWhile isWord ∈ [['e'], ['E']] ++ suffixes := by
  cases follows with
  | digit rest isDigit =>
    rw [List.takeWhile_cons_of_pos (Unicode.isWord_of_isDecimal isDigit)]
    exact .inl ⟨_, List.mem_cons_self, isDigit⟩
  | @exponent letter next rest isLetter isNext =>
    have single : [letter] ∈ [['e'], ['E']] := by
      rw [List.mem_pair] at isLetter ⊢
      simpa using isLetter
    rw [List.takeWhile_cons_of_pos (isWord_of_mem_letters letter isLetter)]
    rcases isNext with isDigit | noWord
    · rw [List.takeWhile_cons_of_pos (Unicode.isWord_of_isDecimal isDigit)]
      exact .inl ⟨next, List.mem_cons_of_mem _ List.mem_cons_self, isDigit⟩
    · rw [List.takeWhile_cons_of_neg (by rw [noWord]; exact nofun)]
      exact .inr (List.mem_append_left _ single)
  | suffix known =>
    rw [List.takeWhile_eq_self_iff.mpr (isWord_of_mem_suffixes known)]
    exact .inr (List.mem_append_right _ known)

theorem exists_separator {text : Text} {place : Nat} (after : 0 < place)
    (before : place < text.length) : ∃ earlier separator part,
      text = earlier ++ [separator] ++ part ∧ (earlier ++ [separator]).length = place ∧
        part ≠ [] := by
  obtain ⟨index, rfl⟩ : ∃ index, place = index + 1 := ⟨place - 1, by omega⟩
  refine ⟨text.take index, text[index], text.drop (index + 1), ?_, ?_, ?_⟩
  · rw [List.append_assoc, List.singleton_append, ← List.drop_eq_getElem_cons,
      List.take_append_drop]
  · rw [List.length_append, List.length_take_of_le (by omega), List.length_singleton]
  · rw [Ne, List.drop_eq_nil_iff]
    omega

/-- A number and a known word do not overlap. -/
theorem apart_of_mem_stretches {words : List String}
    (all : ∀ word ∈ words, word ≠ "" ∧ word.toList.all isWord = true)
    (noNumber : ∀ word ∈ words, word.toList.any isDecimal = false ∧
      word.toList ∉ [['e'], ['E']] ++ suffixes) {text : Text} {number stretch : Stretch}
    (one : number ∈ pattern.stretches text)
    (other : stretch ∈ (Vocabulary.pattern words).stretches text) : number.Apart stretch := by
  obtain ⟨word, known, run, stop, starts⟩ := Vocabulary.run_of_mem_stretches all other
  obtain ⟨-, within, last, found, numberStop⟩ := mem_stretches one
  obtain ⟨digit, rest, reads, isDigit, continues, numberStarts, stops⟩ := mem_ends_pattern found
  obtain ⟨noDigit, noPart⟩ := noNumber word known
  by_contra overlap
  rw [Stretch.Apart, not_or] at overlap
  have nonempty : (text.cursorAt stretch.start).run isWord ≠ [] := by
    rw [run]
    simpa using (all word known).1
  rcases Nat.lt_trichotomy number.start stretch.start with before | same | after
  · -- The word would start after a separator in the number.
    have size : number.stop = number.start + (digit :: rest).length := by
      rw [← numberStop, reads.position]
      rfl
    obtain ⟨earlier, separator, part, split, length, left⟩ :=
      exists_separator (show 0 < stretch.start - number.start by omega)
        (show stretch.start - number.start < (digit :: rest).length by omega)
    have place : number.start + (earlier ++ [separator]).length = stretch.start := by omega
    rw [split] at reads continues
    obtain ⟨readsPart, previous⟩ := reads.rest within
    rw [place] at readsPart previous
    have noWord := Cursor.before_of_atBoundary starts nonempty
    rw [previous, List.getLast?_concat, Option.some_or, Option.any_some] at noWord
    rw [List.append_assoc, List.singleton_append] at continues
    have follows := (continues.follows noWord).takeWhile_isWord
    rw [← readsPart.run_of_atBoundary left stops, run] at follows
    rcases follows with ⟨c, member, isDigit⟩ | known
    · exact List.any_eq_false.mp noDigit c member isDigit
    · exact noPart known
  · rw [same] at reads
    rw [reads.run_of_atBoundary (List.cons_ne_nil _ _) stops,
      List.takeWhile_cons_of_pos (Unicode.isWord_of_isDecimal isDigit)] at run
    exact List.any_eq_false.mp noDigit digit (run ▸ List.mem_cons_self) isDigit
  · have inside := Cursor.not_atBoundary_of_run text after (by rw [run]; omega)
    rw [inside] at numberStarts
    exact absurd numberStarts nofun

end Number

def RegionKind.category (kind : RegionKind) : Category :=
  if kind.isComment then .comment else .string

namespace Highlight

open Unicode (isWord)

theorem apart_span {first second : Stretch} (apart : first.Apart second) (palette : Palette)
    (category other : Category) : (first.span palette category).Apart (second.span palette other) :=
  apart.imp Int.ofNat_le.mpr Int.ofNat_le.mpr

/-- Whether none of the characters that open a region is of a class. -/
def OpensNone (accepts : Char → Bool) : Prop :=
  accepts '/' = false ∧ accepts '"' = false ∧ accepts '\'' = false

/-- A match that starts outside a region stays outside, if no region can open in it. -/
theorem apart_of_region {accepts : Char → Bool} (outside : OpensNone accepts) {pattern : Pattern}
    (within : pattern.Within accepts) {text : Text} {stretch : Stretch} {region : Region}
    (one : stretch ∈ pattern.stretches text) (other : region ∈ Region.scan text)
    (starts : region.holds stretch.start = false) :
    region.stop ≤ stretch.start ∨ stretch.stop ≤ region.start := by
  obtain ⟨-, bound, last, found, stop⟩ := Pattern.mem_stretches one
  obtain ⟨part, reads, all⟩ := Pattern.reads_of_mem_ends within found
  have size : stretch.stop = stretch.start + part.length := by
    rw [← stop, reads.position]
    rfl
  obtain ⟨before, length, same, opens⟩ := Region.mem_scanFrom other
  obtain ⟨c, rest, opened, opener⟩ := Region.head_of_opening?_eq_some opens
  have place : region.start = before := by rw [same, Nat.zero_add]
  by_contra overlap
  rw [not_or] at overlap
  rw [Bool.eq_false_iff, Ne, Region.holds_iff] at starts
  have ahead : text.drop stretch.start = part ++ last.ahead := reads.ahead
  have moved : before = stretch.start + (before - stretch.start) := by omega
  have here : c ∈ part := by
    rw [moved, ← List.drop_drop, ahead, List.drop_append_of_le_length (by omega)] at opened
    cases remaining : part.drop (before - stretch.start) with
    | nil =>
      rw [List.drop_eq_nil_iff] at remaining
      omega
    | cons d more =>
      rw [remaining, List.cons_append, List.cons.injEq] at opened
      rw [← opened.1]
      exact List.mem_of_mem_drop (remaining ▸ List.mem_cons_self)
  have accepted := all c here
  obtain ⟨slash, quote, apostrophe⟩ := outside
  rcases opener with rfl | rfl | rfl
  · exact absurd (slash.symm.trans accepted) nofun
  · exact absurd (quote.symm.trans accepted) nofun
  · exact absurd (apostrophe.symm.trans accepted) nofun

theorem pairwise_regionPasses : regionPasses.Pairwise fun earlier later =>
    ∀ kind ∈ earlier.1, kind ∉ later.1 := by
  decide

theorem category_of_mem_regionPasses : ∀ pass ∈ regionPasses, ∀ kind ∈ pass.1,
    kind.category = pass.2 := by
  decide

theorem exists_regionPass (kind : RegionKind) : ∃ pass ∈ regionPasses, kind ∈ pass.1 := by
  cases kind <;> decide

/-- The spans of regions are those of each region in the category of its kind. -/
theorem mem_regionSpans_iff {palette : Palette} {regions : List Region} {span : Span} :
    span ∈ regionSpans palette regions ↔
      ∃ region ∈ regions, region.span palette region.kind.category = span := by
  rw [regionSpans, List.mem_flatMap]
  constructor
  · rintro ⟨pass, known, inPass⟩
    obtain ⟨region, kept, rfl⟩ := List.mem_map.mp inPass
    rw [List.mem_filter, List.contains_iff_mem] at kept
    refine ⟨region, kept.1, ?_⟩
    rw [category_of_mem_regionPasses pass known region.kind kept.2]
  · rintro ⟨region, inside, rfl⟩
    obtain ⟨pass, known, marked⟩ := exists_regionPass region.kind
    refine ⟨pass, known, List.mem_map.mpr ⟨region, ?_, ?_⟩⟩
    · exact List.mem_filter.mpr ⟨inside, List.contains_iff_mem.mpr marked⟩
    · rw [category_of_mem_regionPasses pass known region.kind marked]

theorem pairwise_regionSpans (palette : Palette) (text : Text) :
    (regionSpans palette (Region.scan text)).Pairwise Span.Apart := by
  rw [regionSpans, List.pairwise_flatMap]
  constructor
  · intro pass _
    rw [List.pairwise_map]
    exact ((Region.pairwise_scan text).filter _).imp fun {earlier later} before =>
      Or.inl (Int.ofNat_le.mpr before)
  · refine pairwise_regionPasses.imp fun {earlier later} distinct first one second other => ?_
    obtain ⟨region, kept, rfl⟩ := List.mem_map.mp one
    obtain ⟨region', kept', rfl⟩ := List.mem_map.mp other
    rw [List.mem_filter, List.contains_iff_mem] at kept kept'
    have different : region ≠ region' := fun same => distinct _ kept.2 (same ▸ kept'.2)
    exact (Region.apart_of_mem_scan kept.1 kept'.1 different).imp Int.ofNat_le.mpr Int.ofNat_le.mpr

theorem pairwise_codeSpans (palette : Palette) (index : RegionIndex) (text : Text) :
    (codeSpans palette index text).Pairwise Span.Apart := by
  rw [codeSpans, List.pairwise_flatMap]
  constructor
  · intro pass _
    rw [List.pairwise_map]
    exact ((pass.1.pairwise_stretches text).filter _).imp fun {earlier later} before =>
      apart_span (.inl before) palette pass.2 pass.2
  · have passes : codePasses.Pairwise fun earlier later =>
        ∀ first ∈ earlier.1.stretches text, ∀ second ∈ later.1.stretches text,
          first.Apart second := by
      rw [codePasses, List.pairwise_cons, List.pairwise_map]
      constructor
      · intro pass member first one second other
        obtain ⟨table, known, rfl⟩ := List.mem_map.mp member
        exact Number.apart_of_mem_stretches (Vocabulary.isWord_of_mem_tables table known)
          (Vocabulary.no_number_of_mem_tables table known) one other
      · refine Vocabulary.pairwise_tables.imp_of_mem
          fun {earlier later} known known' distinct first one second other => ?_
        exact Vocabulary.apart_of_mem_stretches (Vocabulary.isWord_of_mem_tables earlier known)
          (Vocabulary.isWord_of_mem_tables later known') distinct one other
    refine passes.imp fun {earlier later} apart first one second other => ?_
    obtain ⟨stretch, kept, rfl⟩ := List.mem_map.mp one
    obtain ⟨stretch', kept', rfl⟩ := List.mem_map.mp other
    exact apart_span (apart stretch (List.mem_of_mem_filter kept) stretch'
      (List.mem_of_mem_filter kept')) palette earlier.2 later.2

/-- The characters of each pattern, none of which opens a region or breaks a line. -/
theorem exists_within_of_mem_codePasses {pass : Pattern × Category} (member : pass ∈ codePasses) :
    ∃ accepts : Char → Bool, (∀ c, isWord c = true → accepts c = true) ∧
      (∀ c, Text.isLineBreak c = true → accepts c = false) ∧
      OpensNone accepts ∧ pass.1.Within accepts := by
  have unbroken : ∀ accepts : Char → Bool, accepts '\n' = false → accepts '\r' = false →
      ∀ c, Text.isLineBreak c = true → accepts c = false := by
    intro accepts feed carriage c breaks
    rw [Text.isLineBreak, Bool.or_eq_true, beq_iff_eq, beq_iff_eq] at breaks
    rcases breaks with rfl | rfl
    · exact feed
    · exact carriage
  rw [codePasses, List.mem_cons] at member
  rcases member with rfl | word
  · exact ⟨Number.isPart, fun _ => Number.isPart_of_isWord, unbroken _ (by decide) (by decide),
      ⟨by decide, by decide, by decide⟩, Number.within_isPart⟩
  · obtain ⟨table, known, rfl⟩ := List.mem_map.mp word
    refine ⟨isWord, fun _ same => same, unbroken _ (by decide) (by decide),
      ⟨by decide, by decide, by decide⟩, ?_⟩
    exact Vocabulary.within_pattern_of_subset known (List.Subset.refl table.2)

/-- The spans of a scan do not overlap. -/
theorem pairwise_scan (palette : Palette) (text : Text) :
    (scan palette text).Pairwise Span.Apart := by
  rw [scan, List.pairwise_append]
  refine ⟨pairwise_regionSpans palette text, pairwise_codeSpans palette _ text, ?_⟩
  intro first one second other
  obtain ⟨region, inText, rfl⟩ := mem_regionSpans_iff.mp one
  obtain ⟨pass, known, inPass⟩ := List.mem_flatMap.mp other
  obtain ⟨stretch, kept, rfl⟩ := List.mem_map.mp inPass
  rw [List.mem_filter, RegionIndex.contains_iff, Bool.not_eq_true', List.any_eq_false] at kept
  obtain ⟨accepts, -, -, outside, within⟩ := exists_within_of_mem_codePasses known
  have starts := Bool.eq_false_iff.mpr (kept.2 region inText)
  exact (apart_of_region outside within kept.1 inText starts).imp Int.ofNat_le.mpr Int.ofNat_le.mpr

theorem within_of_mem_stretches {pattern : Pattern} {text : Text} {stretch : Stretch}
    (member : stretch ∈ pattern.stretches text) (palette : Palette) (category : Category) :
    (stretch.span palette category).Within text := by
  obtain ⟨forward, inText⟩ := Pattern.mem_stretches_bounds member
  exact ⟨Int.natCast_nonneg _, Int.ofNat_lt.mpr forward, Int.ofNat_le.mpr inText⟩

/-- Each span has a position, and all its positions are in the text. -/
theorem within_of_mem_spans {mode : Containment} {palette : Palette} {text : Text} {span : Span}
    (member : span ∈ spans mode palette text) : span.Within text := by
  cases mode with
  | scan =>
    rcases List.mem_append.mp member with inRegions | inCode
    · obtain ⟨region, inScan, rfl⟩ := mem_regionSpans_iff.mp inRegions
      obtain ⟨forward, inText⟩ := Region.mem_scan_bounds inScan
      exact ⟨Int.natCast_nonneg _, Int.ofNat_lt.mpr forward, Int.ofNat_le.mpr inText⟩
    · obtain ⟨pass, -, inPass⟩ := List.mem_flatMap.mp inCode
      obtain ⟨stretch, kept, rfl⟩ := List.mem_map.mp inPass
      exact within_of_mem_stretches (List.mem_of_mem_filter kept) palette pass.2
  | heuristic =>
    obtain ⟨pass, -, inPass⟩ := List.mem_flatMap.mp member
    obtain ⟨stretch, kept, rfl⟩ := List.mem_map.mp inPass
    exact within_of_mem_stretches (List.mem_of_mem_filter kept) palette pass.category

/-- In either mode each span is a part of the text, and in a scan no two spans overlap. -/
theorem spans_within_and_apart (palette : Palette) (text : Text) :
    (∀ mode, ∀ span ∈ spans mode palette text,
      0 ≤ span.start ∧ span.start < span.stop ∧ span.stop ≤ text.length) ∧
    (spans .scan palette text).Pairwise fun first second =>
      first.stop ≤ second.start ∨ second.stop ≤ first.start :=
  ⟨fun _ _ member => within_of_mem_spans member, pairwise_scan palette text⟩

end Highlight

end KotlinHighlight
