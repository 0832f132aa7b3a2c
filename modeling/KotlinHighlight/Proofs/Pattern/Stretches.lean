import Mathlib.Data.List.TakeWhile
import KotlinHighlight.Proofs.Pattern.Run

/-! # Where the matches of a pattern stand

The matches of a pattern in a text are not empty, stand within the text and do not overlap
(`mem_stretches`, `pairwise_stretches`), and they start with a character that opens the pattern
(`head_of_opens`). Any character that a pattern of one class does not take parts the text: the
matches on the two sides of it are those of the two parts (`stretches_append_separator`).
-/

namespace KotlinHighlight

def Stretch.moved (distance : Nat) (stretch : Stretch) : Stretch :=
  ⟨stretch.start + distance, stretch.stop + distance⟩

def Text.cursorAt (text : Text) (position : Nat) : Cursor :=
  ⟨position, (text.take position).getLast?, text.drop position⟩

namespace Cursor

theorem cursorAt_length (earlier later : Text) :
    (earlier ++ later).cursorAt earlier.length = ⟨earlier.length, earlier.getLast?, later⟩ := by
  rw [Text.cursorAt, List.take_left, List.drop_left]

/-- Reading leads on in the same text. -/
theorem reads_cursorAt {text part rest : Text} {start : Nat} (within : start ≤ text.length)
    (ahead : text.drop start = part ++ rest) :
    (text.cursorAt start).Reads part (text.cursorAt (start + part.length)) := by
  have split : text = text.take start ++ (part ++ rest) := by
    rw [← ahead, List.take_append_drop]
  have length : (text.take start ++ part).length = start + part.length := by
    rw [List.length_append, List.length_take_of_le within]
  have taken : text.take (start + part.length) = text.take start ++ part := by
    conv_lhs => rw [split, ← List.append_assoc, ← length]
    exact List.take_left
  have dropped : text.drop (start + part.length) = rest := by
    conv_lhs => rw [split, ← List.append_assoc, ← length]
    exact List.drop_left
  refine ⟨?_, rfl, ?_⟩
  · rw [Text.cursorAt, Text.cursorAt, ahead, dropped]
  · rw [Text.cursorAt, Text.cursorAt, taken, List.getLast?_append]

/-- A boundary after the first character shows in the two characters around it. -/
theorem atBoundary_cursorAt_succ {text : Text} {position : Nat} (within : position < text.length) :
    (text.cursorAt (position + 1)).atBoundary =
      (text[position]?.any Unicode.isWord != text[position + 1]?.any Unicode.isWord) := by
  rw [atBoundary, Text.cursorAt, List.head?_drop, List.take_add_one, List.getElem?_eq_getElem within,
    Option.toList_some, List.getLast?_append]
  rfl

/-- A word that ends at a boundary takes its run along, even if a separator is in it. -/
theorem Reads.run_of_atBoundary {text : Text} {first last : Cursor} (reads : first.Reads text last)
    (nonempty : text ≠ []) (stops : last.atBoundary = true) :
    first.run Unicode.isWord = text.takeWhile Unicode.isWord := by
  rw [run, reads.ahead, List.takeWhile_append]
  split
  · rename_i whole
    have same := (List.takeWhile_prefix Unicode.isWord).eq_of_length whole
    have word : last.before.any Unicode.isWord = true := by
      rw [reads.before, List.getLast?_eq_some_getLast nonempty, Option.some_or, Option.any_some]
      exact List.takeWhile_eq_self_iff.mp same _ (List.getLast_mem nonempty)
    rw [atBoundary, word] at stops
    have noWord : last.ahead.takeWhile Unicode.isWord = [] := by
      cases later : last.ahead with
      | nil => rfl
      | cons c rest =>
        rw [later] at stops
        apply List.takeWhile_cons_of_neg
        intro taken
        simp [taken] at stops
    rw [noWord, List.append_nil, same]
  · rfl

end Cursor

namespace Pattern

theorem matchEnd?_eq_none_iff {pattern : Pattern} {cursor : Cursor} :
    pattern.matchEnd? cursor = none ↔ ∀ last, last ∉ pattern.ends cursor := by
  rw [matchEnd?, Option.map_eq_none_iff, List.head?_eq_none_iff, List.eq_nil_iff_forall_not_mem]

/-- A match goes from the end of what stands before it to the end that is preferred there. -/
theorem matchEnd?_of_mem_stretchesFrom {pattern : Pattern} {skip position : Nat} {before : Option Char}
    {text : Text} {stretch : Stretch}
    (member : stretch ∈ pattern.stretchesFrom skip position before text) :
    stretch.start < stretch.stop ∧ ∃ earlier later, text = earlier ++ later ∧
      skip ≤ earlier.length ∧ stretch.start = position + earlier.length ∧
      pattern.matchEnd? ⟨stretch.start, earlier.getLast?.or before, later⟩ = some stretch.stop := by
  induction text generalizing skip position before with
  | nil => exact absurd member List.not_mem_nil
  | cons c rest ih =>
    -- A match that is found further on stands behind one character more.
    have further : ∀ {skip' : Nat}, skip ≤ skip' + 1 →
        stretch ∈ pattern.stretchesFrom skip' (position + 1) (some c) rest →
        stretch.start < stretch.stop ∧ ∃ earlier later, c :: rest = earlier ++ later ∧
          skip ≤ earlier.length ∧ stretch.start = position + earlier.length ∧
          pattern.matchEnd? ⟨stretch.start, earlier.getLast?.or before, later⟩ =
            some stretch.stop := by
      intro skip' room found
      obtain ⟨forward, earlier, later, rfl, skipped, start, found⟩ := ih found
      refine ⟨forward, c :: earlier, later, rfl, ?_, ?_, ?_⟩
      · rw [List.length_cons]
        omega
      · rw [start, List.length_cons]
        omega
      · rw [List.getLast?_cons, Option.some_or]
        cases known : earlier.getLast? with
        | none => rwa [known] at found
        | some d => rwa [known] at found
    cases skip with
    | succ skip => exact further (Nat.le_refl _) member
    | zero =>
      rw [stretchesFrom] at member
      cases found : pattern.matchEnd? ⟨position, before, c :: rest⟩ with
      | none =>
        rw [found] at member
        exact further (Nat.zero_le _) member
      | some stop =>
        simp only [found] at member
        by_cases forward : position < stop
        · rw [if_pos forward, List.mem_cons] at member
          rcases member with rfl | later
          · exact ⟨forward, [], c :: rest, rfl, Nat.le_refl _, rfl, found⟩
          · exact further (Nat.zero_le _) later
        · rw [if_neg forward] at member
          exact further (Nat.zero_le _) member

/-- The next match is searched after the one before. -/
theorem pairwise_stretchesFrom (pattern : Pattern) (skip position : Nat) (before : Option Char)
    (text : Text) : (pattern.stretchesFrom skip position before text).Pairwise
      fun earlier later => earlier.stop ≤ later.start := by
  induction text generalizing skip position before with
  | nil => exact List.Pairwise.nil
  | cons c rest ih =>
    cases skip with
    | succ skip => exact ih skip _ _
    | zero =>
      rw [stretchesFrom]
      cases pattern.matchEnd? ⟨position, before, c :: rest⟩ with
      | none => exact ih 0 _ _
      | some stop =>
        dsimp only
        split
        · refine List.pairwise_cons.mpr ⟨fun later member => ?_, ih _ _ _⟩
          obtain ⟨-, earlier, -, -, skipped, start, -⟩ := matchEnd?_of_mem_stretchesFrom member
          dsimp only
          omega
        · exact ih 0 _ _

/-- A match is not empty, and it stops at the end that the pattern prefers from its start. -/
theorem matchEnd?_of_mem_stretches {pattern : Pattern} {text : Text} {stretch : Stretch}
    (member : stretch ∈ pattern.stretches text) :
    stretch.start < stretch.stop ∧ stretch.start ≤ text.length ∧
      pattern.matchEnd? (text.cursorAt stretch.start) = some stretch.stop := by
  obtain ⟨forward, earlier, later, rfl, -, start, found⟩ := matchEnd?_of_mem_stretchesFrom member
  rw [Nat.zero_add] at start
  rw [Option.or_none, start, ← Cursor.cursorAt_length, ← start] at found
  refine ⟨forward, ?_, found⟩
  rw [start, List.length_append]
  exact Nat.le_add_right _ _

/-- So it stops at one of the ends of the pattern from its start. -/
theorem mem_stretches {pattern : Pattern} {text : Text} {stretch : Stretch}
    (member : stretch ∈ pattern.stretches text) :
    stretch.start < stretch.stop ∧ stretch.start ≤ text.length ∧
      ∃ last ∈ pattern.ends (text.cursorAt stretch.start), last.position = stretch.stop := by
  obtain ⟨forward, within, found⟩ := matchEnd?_of_mem_stretches member
  obtain ⟨last, first, stop⟩ := Option.map_eq_some_iff.mp found
  exact ⟨forward, within, last, List.mem_of_mem_head? first, stop⟩

theorem pairwise_stretches (pattern : Pattern) (text : Text) :
    (pattern.stretches text).Pairwise fun earlier later => earlier.stop ≤ later.start :=
  pattern.pairwise_stretchesFrom 0 0 none text

/-- A match is not empty and stands within the text. -/
theorem mem_stretches_bounds {pattern : Pattern} {text : Text} {stretch : Stretch}
    (member : stretch ∈ pattern.stretches text) :
    stretch.start < stretch.stop ∧ stretch.stop ≤ text.length := by
  obtain ⟨forward, within, last, found, stop⟩ := mem_stretches member
  have ahead := (pattern.reaches_of_mem_ends found).position_add_length
  simp only [Text.cursorAt, List.length_drop] at ahead
  exact ⟨forward, by omega⟩

section OneClass

variable {accepts : Char → Bool} {pattern : Pattern}

/-- From cursors that are alike a match ends at the same distance. -/
theorem matchEnd?_alike (words : ∀ c, Unicode.isWord c = true → accepts c = true)
    (within : pattern.Within accepts) {distance : Nat} {first second : Cursor}
    (alike : first.Alike accepts distance second) :
    pattern.matchEnd? second = (pattern.matchEnd? first).map (· + distance) := by
  have same := ends_alike words within alike
  rw [matchEnd?, matchEnd?, Option.map_map]
  generalize pattern.ends first = ends, pattern.ends second = others at same
  cases same with
  | nil => rfl
  | cons next _ => exact congrArg some next.position

/-- A match ends within the run of the class. -/
theorem matchEnd?_le (within : pattern.Within accepts) {cursor : Cursor} {stop : Nat}
    (found : pattern.matchEnd? cursor = some stop) :
    stop ≤ cursor.position + (cursor.run accepts).length := by
  obtain ⟨last, first, rfl⟩ := Option.map_eq_some_iff.mp found
  obtain ⟨text, reads, inText⟩ := reads_of_mem_ends within (List.mem_of_mem_head? first)
  rw [reads.position, reads.run_eq inText, List.length_append]
  omega

/-- Where a text stands does not matter for its matches, and of what stands before it only whether
it is a word character. -/
theorem stretchesFrom_add (words : ∀ c, Unicode.isWord c = true → accepts c = true)
    (within : pattern.Within accepts) (skip position distance : Nat) {before other : Option Char}
    (same : other.any Unicode.isWord = before.any Unicode.isWord) (text : Text) :
    pattern.stretchesFrom skip (position + distance) other text =
      (pattern.stretchesFrom skip position before text).map (·.moved distance) := by
  induction text generalizing skip position before other with
  | nil => rfl
  | cons c rest ih =>
    have further : ∀ skip, pattern.stretchesFrom skip (position + distance + 1) (some c) rest =
        (pattern.stretchesFrom skip (position + 1) (some c) rest).map (·.moved distance) := by
      intro skip
      rw [Nat.add_right_comm]
      exact ih skip _ rfl
    cases skip with
    | succ skip => exact further skip
    | zero =>
      have alike : Cursor.Alike accepts distance ⟨position, before, c :: rest⟩
          ⟨position + distance, other, c :: rest⟩ := ⟨rfl, same, rfl⟩
      rw [stretchesFrom, stretchesFrom, matchEnd?_alike words within alike]
      cases pattern.matchEnd? ⟨position, before, c :: rest⟩ with
      | none => exact further 0
      | some stop =>
        have forward : position + distance < stop + distance ↔ position < stop := by omega
        have left : stop + distance - (position + distance + 1) = stop - (position + 1) := by omega
        simp only [Option.map_some, forward, left, further]
        split
        · rfl
        · rfl

/-- A character that the pattern does not take ends the search in what stands before it. -/
theorem stretchesFrom_append_separator (words : ∀ c, Unicode.isWord c = true → accepts c = true)
    (within : pattern.Within accepts) {separator : Char} (parts : accepts separator = false)
    (skip position : Nat) (previous : Option Char) (before after : Text)
    (room : skip ≤ before.length) :
    pattern.stretchesFrom skip position previous (before ++ separator :: after) =
      pattern.stretchesFrom skip position previous before ++
        pattern.stretchesFrom 0 (position + before.length + 1) (some separator) after := by
  have run : ∀ text : Text, (text ++ separator :: after).takeWhile accepts =
      text.takeWhile accepts := by
    intro text
    rw [List.takeWhile_append]
    split
    · rename_i whole
      rw [List.takeWhile_cons_of_neg (by simp [parts]), List.append_nil,
        (List.takeWhile_prefix accepts).eq_of_length whole]
    · rfl
  induction before generalizing skip position previous with
  | nil =>
    obtain rfl := Nat.le_zero.mp room
    have stays : ∀ stop, pattern.matchEnd? ⟨position, previous, separator :: after⟩ = some stop →
        ¬position < stop := by
      intro stop found
      have short := matchEnd?_le within found
      rw [Cursor.run, ← List.nil_append (separator :: after), run] at short
      simpa using short
    rw [List.nil_append, stretchesFrom, stretchesFrom, List.nil_append, List.length_nil, Nat.add_zero]
    cases found : pattern.matchEnd? ⟨position, previous, separator :: after⟩ with
    | none => rfl
    | some stop => exact if_neg (stays stop found)
  | cons c rest ih =>
    have next : position + (c :: rest).length + 1 = position + 1 + rest.length + 1 := by
      rw [List.length_cons]
      omega
    rw [next, List.cons_append]
    cases skip with
    | succ skip => exact ih skip _ _ (Nat.le_of_succ_le_succ room)
    | zero =>
      have alike : Cursor.Alike accepts 0 ⟨position, previous, c :: rest⟩
          ⟨position, previous, c :: (rest ++ separator :: after)⟩ := ⟨rfl, rfl, run (c :: rest)⟩
      have same := matchEnd?_alike words within alike
      simp only [Nat.add_zero, Option.map_id'] at same
      rw [stretchesFrom, stretchesFrom, same]
      cases found : pattern.matchEnd? ⟨position, previous, c :: rest⟩ with
      | none => exact ih 0 _ _ (Nat.zero_le _)
      | some stop =>
        have short := matchEnd?_le within found
        have least := Cursor.length_run_le accepts ⟨position, previous, c :: rest⟩
        simp only [List.length_cons] at short least
        dsimp only
        split
        · rw [ih _ _ _ (by omega), List.cons_append]
        · exact ih 0 _ _ (Nat.zero_le _)

/-- A character that the pattern does not take parts its matches. -/
theorem stretches_append_separator (words : ∀ c, Unicode.isWord c = true → accepts c = true)
    (within : pattern.Within accepts) {separator : Char} (parts : accepts separator = false)
    (before after : Text) :
    pattern.stretches (before ++ separator :: after) =
      pattern.stretches before ++
        (pattern.stretches after).map (·.moved (before.length + 1)) := by
  have noWord : Unicode.isWord separator = false := by
    apply Bool.eq_false_iff.mpr
    intro word
    rw [words separator word] at parts
    exact absurd parts nofun
  have same : (some separator).any Unicode.isWord = (none : Option Char).any Unicode.isWord := noWord
  have moved := stretchesFrom_add words within 0 0 (before.length + 1) same after
  rw [stretches, stretchesFrom_append_separator words within parts _ _ _ _ _ (Nat.zero_le _),
    Nat.add_assoc, moved]
  rfl

/-- Two texts have their own matches where a character that the pattern does not take stands on one
side of the place at which they meet. -/
theorem stretches_append_of_parted (words : ∀ c, Unicode.isWord c = true → accepts c = true)
    (within : pattern.Within accepts) {first second : Text}
    (parted : second = [] ∨ ∃ c, accepts c = false ∧ ([c] <:+ first ∨ [c] <+: second)) :
    pattern.stretches (first ++ second) =
      pattern.stretches first ++ (pattern.stretches second).map (·.moved first.length) := by
  rcases parted with rfl | ⟨c, parts, ⟨before, rfl⟩ | ⟨after, rfl⟩⟩
  · rw [List.append_nil]
    exact (List.append_nil _).symm
  · have alone := stretches_append_separator words within parts before []
    have empty : pattern.stretches [] = [] := rfl
    rw [empty, List.map_nil, List.append_nil] at alone
    rw [List.append_assoc, List.singleton_append, alone,
      stretches_append_separator words within parts, List.length_append, List.length_singleton]
  · have alone := stretches_append_separator words within parts [] after
    have empty : pattern.stretches [] = [] := rfl
    rw [empty, List.nil_append, List.nil_append] at alone
    rw [List.singleton_append, alone, stretches_append_separator words within parts, List.map_map]
    congr 2
    funext stretch
    simp only [Function.comp_apply, Stretch.moved, Stretch.mk.injEq, List.length_nil]
    omega

end OneClass

/-- Whether each match of a pattern starts with a character of a class. -/
def Opens (accepts : Char → Bool) (pattern : Pattern) : Prop :=
  ∀ cursor, ∀ last ∈ pattern.ends cursor, cursor.ahead.head?.any accepts = true

theorem opens_char {accepts : Char → Bool} {c : Char} (accepted : accepts c = true) :
    (char c).Opens accepts := by
  intro cursor last member
  obtain ⟨d, same, reads⟩ := mem_ends_one.mp member
  rw [reads.ahead, beq_iff_eq.mp same]
  exact accepted

theorem Opens.mono {narrow wide : Char → Bool} (wider : ∀ c, narrow c = true → wide c = true)
    {pattern : Pattern} (opens : pattern.Opens narrow) : pattern.Opens wide := by
  intro cursor last member
  have head := opens cursor last member
  cases next : cursor.ahead.head? with
  | none =>
    rw [next] at head
    exact absurd head Bool.false_ne_true
  | some c =>
    rw [next] at head
    exact wider c head

theorem Opens.both {accepts : Char → Bool} {first : Pattern} (opens : first.Opens accepts)
    (second : Pattern) : (both first second).Opens accepts := by
  intro cursor last member
  obtain ⟨middle, one, -⟩ := mem_ends_both.mp member
  exact opens cursor middle one

section Stretches

variable {accepts : Char → Bool} {pattern : Pattern} {text : Text} {stretch : Stretch}
  (member : stretch ∈ pattern.stretches text)
include member

theorem head_of_opens (opens : pattern.Opens accepts) : text[stretch.start]?.any accepts = true := by
  obtain ⟨-, -, last, found, -⟩ := mem_stretches member
  have head := opens _ last found
  rwa [Text.cursorAt, List.head?_drop] at head

/-- A match of one class starts with a character of that class, as it is not empty. -/
theorem head_of_within (within : pattern.Within accepts) :
    text[stretch.start]?.any accepts = true := by
  obtain ⟨forward, -, last, found, stop⟩ := mem_stretches member
  obtain ⟨part, reads, all⟩ := reads_of_mem_ends within found
  have ahead := reads.ahead
  cases part with
  | nil =>
    rw [reads.position, List.length_nil] at stop
    exact absurd forward (Nat.not_lt.mpr (Nat.le_of_eq stop.symm))
  | cons c rest =>
    rw [← List.head?_drop]
    change (text.drop stretch.start) = _ at ahead
    rw [ahead]
    exact all c List.mem_cons_self

end Stretches

end Pattern

end KotlinHighlight
