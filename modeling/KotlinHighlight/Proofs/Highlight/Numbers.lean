import KotlinHighlight.Proofs.Highlight.Outside
import KotlinHighlight.Proofs.Number.Longest
import KotlinHighlight.Proofs.Vocabulary.Search

/-! # Whole number literals

A number literal in the code is marked as a whole, also next to `..` and operators
(`number_span_of_literal`). Nothing runs long: what follows the literal cannot be a part of it
(`Number.length_le_of_reads`). Nothing stops short, as the search prefers the longest number. And no
number that starts earlier reaches into the literal (`Number.not_covered`).
-/

namespace KotlinHighlight

namespace Span

/-- Whether a span and an interval have a position in common. -/
def meets (start stop : Int) (span : Span) : Bool :=
  decide (max span.start start < min span.stop stop)

/-- Among spans that stand apart the only one that meets the places of one of them is that one. -/
theorem filter_meets_eq_singleton {spans : List Span} (apart : spans.Pairwise Apart) {span : Span}
    (member : span ∈ spans) (nonempty : span.start < span.stop) :
    spans.filter (·.meets span.start span.stop) = [span] := by
  have noMeeting : ∀ other, span.Apart other ∨ other.Apart span →
      other.meets span.start span.stop = false := by
    intro other apart
    rw [meets, decide_eq_false_iff_not]
    rcases apart with (before | after) | (after | before) <;> omega
  have itself : span.meets span.start span.stop = true := by
    rw [meets, decide_eq_true_eq]
    omega
  induction spans with
  | nil => exact absurd member List.not_mem_nil
  | cons first others ih =>
    rw [List.pairwise_cons] at apart
    rcases List.mem_cons.mp member with rfl | later
    · rw [List.filter_cons_of_pos itself, List.filter_eq_nil_iff.mpr]
      intro other inOthers
      rw [noMeeting other (.inl (apart.1 other inOthers))]
      exact Bool.false_ne_true
    · rw [List.filter_cons_of_neg, ih apart.2 later]
      rw [noMeeting first (.inr (apart.1 span later))]
      exact Bool.false_ne_true

end Span

namespace Number

open Pattern
open Unicode (isDecimal isWord)

/-- Whether what stands before a number can be no part of it: it ends in no word character, in no
single point, and in no sign after the letter of an exponent. -/
structure ClearBefore (before : Text) : Prop where
  word : before.getLast?.any isWord = false
  point : ['.'] <:+ before → ['.', '.'] <:+ before
  sign : ∀ letter ∈ ['e', 'E'], ∀ sign ∈ ['+', '-'], ¬[letter, sign] <:+ before

/-- Whether what stands after a number can be no part of it: nothing, two points, or a character that
is neither a word character nor a point. -/
inductive ClearAfter : Text → Prop
  | nil : ClearAfter []
  | points (rest : Text) : ClearAfter ('.' :: '.' :: rest)
  | separator {c : Char} (rest : Text) : isWord c = false → c ≠ '.' → ClearAfter (c :: rest)

theorem ClearAfter.noWord {after : Text} (clear : ClearAfter after) :
    after.head?.any isWord = false := by
  cases clear with
  | nil => rfl
  | points rest =>
    have point : isWord '.' = false := by decide
    exact point
  | separator rest noWord _ => exact noWord

/-- After a point in a number stands no other point. -/
theorem not_follows_point (rest : Text) : ¬Follows ('.' :: rest) := by
  have suffixed : ∀ suffix ∈ suffixes, suffix.head? ≠ some '.' := by decide
  intro follows
  cases follows with
  | digit rest isDigit => exact absurd isDigit (by decide)
  | exponent rest isLetter _ => exact absurd isLetter (by decide)
  | suffix known => exact suffixed _ known rfl

/-- No number goes on with a sign: before the sign it would end in the letter of an exponent. -/
theorem not_literal_append_sign {literal more : Text} {separator : Char} (isLiteral : Literal literal)
    (longer : Literal (literal ++ separator :: more)) (noWord : isWord separator = false)
    (noPoint : separator ≠ '.') : False := by
  rcases longer.before_separator noWord rfl with ⟨point, -⟩ | ⟨-, letter, isLetter, last⟩
  · exact noPoint point
  have decimal := longer.decimal_of_mem (List.mem_append_right _ List.mem_cons_self) noWord
  cases isLiteral with
  | hexadecimal based =>
    obtain ⟨base, known, member⟩ := based.exists_letter
    have known : base ∈ ['x', 'X', 'b', 'B'] := List.mem_append_left ['b', 'B'] known
    exact decimal.not_mem known (List.mem_append_left _ member)
  | binary based =>
    obtain ⟨base, known, member⟩ := based.exists_letter
    have known : base ∈ ['x', 'X', 'b', 'B'] := List.mem_append_right ['x', 'X'] known
    exact decimal.not_mem known (List.mem_append_left _ member)
  | decimal shorter =>
    have letters : ∀ letter ∈ ['e', 'E'], isLast letter = false :=
      List.all_iff_forall_prop.mp (by decide)
    have isLast := shorter.last
    rw [last, Option.all_some] at isLast
    exact absurd ((letters letter isLetter).symm.trans isLast) Bool.false_ne_true

/-- What follows a literal can be no part of a number: every number at its place is as long or
shorter. -/
theorem length_le_of_reads {literal other : Text} {cursor last place : Cursor}
    (isLiteral : Literal literal) (isOther : Literal other) (reads : cursor.Reads literal last)
    (readsOther : cursor.Reads other place) (stops : place.atBoundary = true)
    (clear : ClearAfter last.ahead) : other.length ≤ literal.length := by
  by_contra longer
  obtain ⟨rest, rfl⟩ := reads.prefix_of_le readsOther (by omega)
  obtain ⟨middle, readsFirst, readsRest⟩ := readsOther.split
  obtain rfl := readsFirst.unique reads
  have ahead := readsRest.ahead
  cases rest with
  | nil =>
    rw [List.append_nil] at longer
    exact longer (Nat.le_refl _)
  | cons c more =>
    rw [List.cons_append] at ahead
    rw [ahead] at clear
    generalize tail : more ++ place.ahead = after at clear
    cases clear with
    | points rest =>
      cases more with
      | nil =>
        rw [List.nil_append] at tail
        have point : isWord '.' = false := by decide
        simp [Cursor.atBoundary, readsRest.before, tail, point] at stops
      | cons d others =>
        obtain ⟨rfl, -⟩ := List.cons.inj tail
        exact not_follows_point others (isOther.continues.follows (by decide))
    | separator rest noWord noPoint => exact not_literal_append_sign isLiteral isOther noWord noPoint

section Place

variable {before literal after : Text}

/-- What a clear text ends with is not inside of a number. -/
theorem ClearBefore.not_literal (clear : ClearBefore before) {part rest : Text} {c : Char}
    (suffix : part ++ [c] <:+ before) (isLiteral : Literal (part ++ [c] ++ rest)) : False := by
  have noWord : isWord c = false := by
    have word := clear.word
    obtain ⟨earlier, rfl⟩ := suffix
    rwa [← List.append_assoc, List.getLast?_concat] at word
  have previous : ∀ d, part.getLast? = some d → [d, c] <:+ before := by
    intro d found
    obtain ⟨earlier, rfl⟩ := List.getLast?_eq_some_iff.mp found
    rw [List.append_assoc] at suffix
    exact (List.suffix_append earlier _).trans suffix
  rcases isLiteral.before_separator noWord (List.append_assoc _ _ _) with
    ⟨rfl, digit⟩ | ⟨isSign, letter, isLetter, found⟩
  · have points := clear.point ((List.suffix_append part _).trans suffix)
    cases found : part.getLast? with
    | none =>
      rw [found] at digit
      exact absurd digit Bool.false_ne_true
    | some d =>
      rw [found] at digit
      have suffixes := List.suffix_of_suffix_length_le points (previous d found) (Nat.le_refl _)
      have same := suffixes.eq_of_length rfl
      obtain ⟨rfl, -⟩ := List.cons.inj same
      exact absurd digit (by decide)
  · exact clear.sign letter isLetter c isSign (previous letter found)

/-- No number that starts before a literal reaches into it. -/
theorem not_covered (clear : ClearBefore before) {stretch : Stretch}
    (member : stretch ∈ pattern.stretches (before ++ after))
    (starts : stretch.start < before.length) : stretch.stop ≤ before.length := by
  by_contra beyond
  obtain ⟨-, -, last, found, stop⟩ := mem_stretches member
  obtain ⟨text, isLiteral, reads, -⟩ := mem_ends_pattern_iff.mp found
  have ahead := reads.ahead
  change (before ++ after).drop stretch.start = text ++ last.ahead at ahead
  rw [List.drop_append_of_le_length (Nat.le_of_lt starts)] at ahead
  have size : before.length - stretch.start < text.length := by
    have place : last.position = stretch.start + text.length := reads.position
    omega
  -- The number has the last character of the part before the literal, and goes on after it.
  obtain ⟨part, c, split⟩ : ∃ part c, before.drop stretch.start = part ++ [c] := by
    rcases List.eq_nil_or_concat (before.drop stretch.start) with touching | ⟨part, c, split⟩
    · have empty := List.drop_eq_nil_iff.mp touching
      omega
    · exact ⟨part, c, split.trans List.concat_eq_append⟩
  rw [split] at ahead
  obtain ⟨rest, rfl⟩ : part ++ [c] <+: text := by
    refine List.prefix_of_prefix_length_le ⟨after, ahead⟩ (List.prefix_append _ _) ?_
    rw [← split, List.length_drop]
    omega
  exact clear.not_literal (split ▸ List.drop_suffix _ _) isLiteral

/-- Where a literal stands in the code the search finds it whole. -/
theorem matchEnd?_of_literal (isLiteral : Literal literal) (ended : literal.getLast? ≠ some '.')
    (clearBefore : ClearBefore before) (clearAfter : ClearAfter after) :
    pattern.matchEnd? ((before ++ (literal ++ after)).cursorAt before.length) =
      some (before.length + literal.length) := by
  have within : before.length ≤ (before ++ (literal ++ after)).length := by simp
  have ahead : (before ++ (literal ++ after)).drop before.length = literal ++ after := List.drop_left
  have reads := Cursor.reads_cursorAt within ahead
  rw [Cursor.cursorAt_length] at reads ⊢
  generalize (before ++ (literal ++ after)).cursorAt (before.length + literal.length) = last at reads
  have later : last.ahead = after := List.append_cancel_left reads.ahead.symm
  obtain ⟨digit, more, rfl, isDigit⟩ := isLiteral.exists_cons
  have starts :
      Cursor.atBoundary ⟨before.length, before.getLast?, digit :: more ++ after⟩ = true := by
    simp [Cursor.atBoundary, clearBefore.word, Unicode.isWord_of_isDecimal isDigit]
  have stops : last.atBoundary = true := by
    have final := List.getLast?_eq_some_getLast (List.cons_ne_nil digit more)
    have isLast := isLiteral.last
    rw [final, Option.all_some, Bool.or_eq_true, beq_iff_eq] at isLast
    have word := isLast.resolve_right fun point => ended (final.trans (congrArg _ point))
    rw [Cursor.atBoundary, reads.before, later, final, Option.some_or, Option.any_some, word,
      clearAfter.noWord]
    rfl
  have found := mem_ends_pattern_iff.mpr ⟨_, isLiteral, reads, starts, stops⟩
  have furthest : ∀ other ∈ pattern.ends ⟨before.length, before.getLast?, digit :: more ++ after⟩,
      other.position ≤ last.position := by
    intro other member
    obtain ⟨text, isOther, readsOther, -, stopsOther⟩ := mem_ends_pattern_iff.mp member
    have shorter := length_le_of_reads isLiteral isOther reads readsOther stopsOther
      (later ▸ clearAfter)
    rw [readsOther.position, reads.position]
    omega
  rw [matchEnd?_of_descending descending_pattern found furthest, reads.position]

end Place

end Number

namespace Highlight

open Number

variable {before literal after : Text}

/-- A number literal in the code is marked as a whole, and no other span meets it, whatever stands
around it that can be no part of a number. -/
theorem number_span_of_literal (palette : Palette) (isLiteral : Literal literal)
    (ended : literal.getLast? ≠ some '.') (clearBefore : ClearBefore before)
    (clearAfter : ClearAfter after)
    (inCode : ∀ region ∈ Region.scan (before ++ (literal ++ after)),
      region.holds before.length = false) :
    (spans .scan palette (before ++ (literal ++ after))).filter
        (·.meets before.length (before.length + literal.length)) =
      [⟨before.length, before.length + literal.length, .number, palette.color .number⟩] := by
  obtain ⟨digit, more, same, -⟩ := isLiteral.exists_cons
  have positive : 0 < literal.length := by
    rw [same]
    exact Nat.succ_pos _
  have found := matchEnd?_of_literal isLiteral ended clearBefore clearAfter
  have within : before.length < (before ++ (literal ++ after)).length := by
    simp only [List.length_append]
    omega
  have here : ⟨before.length, before.length + literal.length⟩ ∈
      Number.pattern.stretches (before ++ (literal ++ after)) := by
    rcases Pattern.mem_stretches_or_covered within found (by omega) with here | covered
    · exact here
    · obtain ⟨stretch, member, starts, stops⟩ := covered
      have short := not_covered clearBefore member starts
      omega
  have kept : ⟨before.length, before.length + literal.length⟩ ∈
      outside Number.pattern (before ++ (literal ++ after)) := by
    rw [outside, List.mem_filter, Bool.not_eq_true', List.any_eq_false]
    exact ⟨here, fun region member => Bool.eq_false_iff.mp (inCode region member)⟩
  have known : (Number.pattern, Category.number) ∈ codePasses := List.mem_cons_self
  have marked : Stretch.span palette .number _ ∈
      (outside Number.pattern (before ++ (literal ++ after))).map (·.span palette .number) :=
    List.mem_map.mpr ⟨_, kept, rfl⟩
  rw [← filter_category_scan palette _ known] at marked
  exact Span.filter_meets_eq_singleton (pairwise_scan palette _) (List.mem_of_mem_filter marked)
    (by dsimp only [Stretch.span]; omega)

/-- A float with a fraction, an exponent and a suffix, in the middle of two ranges. -/
theorem number_span_of_literal_between_ranges :
    let before : Text := ['1', '.', '.']
    let literal : Text := ['2', '.', '5', 'e', '-', '3', 'f']
    let after : Text := ['.', '.']
    Literal literal ∧ literal.getLast? ≠ some '.' ∧ ClearBefore before ∧ ClearAfter after ∧
    (∀ region ∈ Region.scan (before ++ (literal ++ after)),
      region.holds before.length = false) ∧
    (spans .scan .default (before ++ (literal ++ after))).filter (·.meets 3 10) =
      [⟨3, 10, .number, Palette.default.color .number⟩] := by
  intro before literal after
  have one : ∀ {digit : Char}, Unicode.isDecimal digit = true →
      ∀ c ∈ [digit], Unicode.isDecimal c = true ∨ c = '_' :=
    fun isDigit => List.forall_mem_singleton.mpr (.inl isDigit)
  have whole : Digits Unicode.isDecimal ['2'] := ⟨by decide, by decide, one (by decide)⟩
  have fraction : Digits Unicode.isDecimal ['5'] := ⟨by decide, by decide, one (by decide)⟩
  have exponent : Exponent ('e' :: (['-'] ++ ['3'])) := by
    apply Exponent.power
    · decide
    · decide
    · exact List.cons_ne_nil _ _
    · exact List.all_eq_true.mp (by decide)
  have isLiteral : Literal literal :=
    .decimal (.intro whole (.digits fraction) exponent (by decide : ['f'] ∈ suffixes))
  have ended : literal.getLast? ≠ some '.' := by decide
  have clearBefore : ClearBefore before := by
    refine ⟨by decide, by decide, ?_⟩
    simp only [List.forall_mem_cons, List.not_mem_nil, false_implies, implies_true, and_true]
    decide
  have clearAfter : ClearAfter after := .points []
  have inCode : ∀ region ∈ Region.scan (before ++ (literal ++ after)),
      region.holds before.length = false := by decide
  refine ⟨isLiteral, ended, clearBefore, clearAfter, inCode, ?_⟩
  simpa [before, literal] using
    number_span_of_literal .default isLiteral ended clearBefore clearAfter inCode

end Highlight

end KotlinHighlight
