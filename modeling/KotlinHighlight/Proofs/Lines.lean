import KotlinHighlight.LineIndex
import KotlinHighlight.Pattern

/-! # Where lines stand

The lines of a text as stretches of it. Line feeds part both: what stands on one side of a line feed
has the same lines whatever stands on the other (`lineStretches_append_feed`). The lines cover all
that is no line feed (`exists_line_iff`).
-/

namespace KotlinHighlight

namespace Text

/-- Lines one after the other from `position` on, with one line feed between each and the next. -/
def stretchesOf (position : Nat) : List Text → List Stretch
  | [] => []
  | line :: others =>
    ⟨position, position + line.length⟩ :: stretchesOf (position + line.length + 1) others

/-- The lines of a text that stands at `position`. -/
def lineStretches (position : Nat) (text : Text) : List Stretch :=
  stretchesOf position (lines text)

@[simp] theorem lines_feed_cons (rest : Text) : lines ('\n' :: rest) = [] :: lines rest := by
  simp [lines]

/-- A line feed parts the lines before it from those after it. -/
theorem lines_append_feed (before after : Text) :
    lines (before ++ '\n' :: after) = lines before ++ lines after := by
  induction before with
  | nil => simp [lines]
  | cons c rest ih =>
    by_cases feed : c = '\n'
    · simp [feed, ih]
    · obtain ⟨line, others, split⟩ := List.exists_cons_of_ne_nil (lines_ne_nil rest)
      simp [lines, feed, ih, split]

theorem lines_of_not_mem {text : Text} (unbroken : '\n' ∉ text) : lines text = [text] := by
  induction text with
  | nil => rfl
  | cons c rest ih =>
    rw [List.mem_cons, not_or] at unbroken
    rw [lines, if_neg (Ne.symm unbroken.1), ih unbroken.2]

theorem length_lines (text : Text) : (lines text).length = text.count '\n' + 1 := by
  induction text with
  | nil => rfl
  | cons c rest ih =>
    by_cases feed : c = '\n'
    · rw [feed, lines_feed_cons, List.length_cons, List.count_cons_self, ih]
    · obtain ⟨line, others, split⟩ := List.exists_cons_of_ne_nil (lines_ne_nil rest)
      rw [split] at ih
      rw [lines, if_neg feed, split, List.count_cons_of_ne feed]
      exact ih

theorem not_mem_of_mem_lines {text line : Text} (member : line ∈ lines text) : '\n' ∉ line := by
  induction text generalizing line with
  | nil => simp_all [lines]
  | cons c rest ih =>
    obtain ⟨first, others, split⟩ := List.exists_cons_of_ne_nil (lines_ne_nil rest)
    by_cases feed : c = '\n'
    · rw [feed, lines_feed_cons, List.mem_cons] at member
      rcases member with rfl | later
      · exact List.not_mem_nil
      · exact ih later
    · simp only [lines, feed, if_false, split, List.mem_cons] at member
      rcases member with rfl | later
      · have unbroken := ih (split ▸ List.mem_cons_self)
        rw [List.mem_cons, not_or]
        exact ⟨Ne.symm feed, unbroken⟩
      · exact ih (split ▸ List.mem_cons_of_mem _ later)

theorem joinLines_cons (line : Text) {others : List Text} (more : others ≠ []) :
    joinLines (line :: others) = line ++ '\n' :: joinLines others := by
  obtain ⟨next, rest, rfl⟩ := List.exists_cons_of_ne_nil more
  simp [joinLines, List.intercalate]

@[simp] theorem joinLines_singleton (line : Text) : joinLines [line] = line := by
  simp [joinLines, List.intercalate]

theorem lines_joinLines {texts : List Text} (nonempty : texts ≠ [])
    (unbroken : ∀ text ∈ texts, '\n' ∉ text) : lines (joinLines texts) = texts := by
  induction texts with
  | nil => exact absurd rfl nonempty
  | cons first others ih =>
    rw [List.forall_mem_cons] at unbroken
    cases others with
    | nil => rw [joinLines_singleton, lines_of_not_mem unbroken.1]
    | cons second rest =>
      have more := List.cons_ne_nil second rest
      rw [joinLines_cons first more, lines_append_feed, lines_of_not_mem unbroken.1,
        ih more unbroken.2]
      rfl

theorem sizeBefore_succ (size : Text → Nat) {count : Nat} {texts : List Text} {line : Text}
    (there : texts[count]? = some line) :
    sizeBefore size (count + 1) texts = sizeBefore size count texts + size line + 1 := by
  induction texts generalizing count with
  | nil => simp at there
  | cons first others ih =>
    cases count with
    | zero =>
      obtain rfl : first = line := by simpa using there
      simp [sizeBefore]
    | succ count =>
      have later := @ih count (by simpa using there)
      simp only [sizeBefore] at later ⊢
      omega

theorem length_joinLines {texts : List Text} (nonempty : texts ≠ []) :
    (joinLines texts).length + 1 = sizeBefore List.length texts.length texts := by
  induction texts with
  | nil => exact absurd rfl nonempty
  | cons line others ih =>
    by_cases last : others = []
    · subst last
      simp [sizeBefore]
    · rw [joinLines_cons line last, List.length_cons, sizeBefore, ← ih last]
      simp only [List.length_append, List.length_cons]
      omega

/-- The lines of a text take one position more than the text. -/
theorem sizeBefore_lines (text : Text) :
    sizeBefore List.length (lines text).length (lines text) = text.length + 1 := by
  rw [← length_joinLines (lines_ne_nil text), joinLines_lines]

/-- Whether a line starts right after a text. -/
def StartsLine (before : Text) : Prop :=
  before = [] ∨ ∃ earlier, before = earlier ++ ['\n']

/-- Whether a line stops right before a text. -/
def StopsLine (after : Text) : Prop :=
  after = [] ∨ ∃ later, after = '\n' :: later

/-- The first texts, each with a line feed after it. -/
def linesBefore (count : Nat) (texts : List Text) : Text :=
  (texts.take count).flatMap (· ++ ['\n'])

/-- The texts after the first ones and one more, each with a line feed before it. -/
def linesAfter (count : Nat) (texts : List Text) : Text :=
  (texts.drop (count + 1)).flatMap ('\n' :: ·)

theorem joinLines_cons_eq (line : Text) (others : List Text) :
    joinLines (line :: others) = line ++ others.flatMap ('\n' :: ·) := by
  induction others generalizing line with
  | nil => rw [joinLines_singleton, List.flatMap_nil, List.append_nil]
  | cons next rest ih =>
    rw [joinLines_cons line (List.cons_ne_nil _ _), ih, List.flatMap_cons, List.cons_append]

/-- Nothing but line feeds is put between texts. -/
theorem eq_feed_or_mem_of_mem_joinLines {texts : List Text} {c : Char}
    (member : c ∈ joinLines texts) : c = '\n' ∨ ∃ text ∈ texts, c ∈ text := by
  cases texts with
  | nil => exact absurd member List.not_mem_nil
  | cons first others =>
    rw [joinLines_cons_eq, List.mem_append, List.mem_flatMap] at member
    rcases member with here | ⟨text, later, inside⟩
    · exact .inr ⟨first, List.mem_cons_self, here⟩
    · rcases List.mem_cons.mp inside with feed | there
      · exact .inl feed
      · exact .inr ⟨text, List.mem_cons_of_mem _ later, there⟩

/-- One of some texts stands between those before it and those after it. -/
theorem joinLines_eq {texts : List Text} {number : Nat} {content : Text}
    (there : texts[number]? = some content) :
    joinLines texts = linesBefore number texts ++ content ++ linesAfter number texts := by
  induction texts generalizing number with
  | nil => exact absurd there nofun
  | cons first others ih =>
    cases number with
    | zero =>
      obtain rfl := Option.some.inj there
      exact joinLines_cons_eq first others
    | succ number =>
      have later : others[number]? = some content := there
      have more : others ≠ [] := by
        rintro rfl
        exact absurd later nofun
      rw [joinLines_cons first more, ih later]
      simp [linesBefore, linesAfter]

theorem linesBefore_succ {texts : List Text} {number : Nat} {content : Text}
    (there : texts[number]? = some content) :
    linesBefore (number + 1) texts = linesBefore number texts ++ content ++ ['\n'] := by
  rw [linesBefore, List.take_add_one, there, Option.toList_some, List.flatMap_append]
  simp [linesBefore]

/-- The first of some texts without line feeds have one line feed after each. -/
theorem count_linesBefore {texts : List Text} (unbroken : ∀ text ∈ texts, '\n' ∉ text) {count : Nat}
    (within : count ≤ texts.length) : (linesBefore count texts).count '\n' = count := by
  induction count with
  | zero => rfl
  | succ count ih =>
    have there := List.getElem?_eq_getElem within
    have noFeed := List.count_eq_zero_of_not_mem (unbroken _ (List.getElem_mem within))
    rw [linesBefore_succ there, List.count_append, List.count_append, ih (Nat.le_of_succ_le within),
      noFeed]
    rfl

/-- Sizes that add up, and are one for a line feed, add up for the first texts. -/
theorem size_linesBefore {size : Text → Nat} (nil : size [] = 0) (feed : size ['\n'] = 1)
    (append : ∀ first second, size (first ++ second) = size first + size second) (count : Nat)
    (texts : List Text) : size (linesBefore count texts) = sizeBefore size count texts := by
  induction texts generalizing count with
  | nil => cases count <;> exact nil
  | cons first others ih =>
    cases count with
    | zero => exact nil
    | succ count =>
      have later := ih count
      rw [linesBefore] at later ⊢
      rw [List.take_succ_cons, List.flatMap_cons, append, later, append, feed, sizeBefore]

theorem length_linesBefore (count : Nat) (texts : List Text) :
    (linesBefore count texts).length = sizeBefore List.length count texts :=
  size_linesBefore rfl rfl (fun _ _ => List.length_append) count texts

theorem startsLine_linesBefore (count : Nat) (texts : List Text) :
    StartsLine (linesBefore count texts) := by
  rcases List.eq_nil_or_concat (texts.take count) with empty | ⟨earlier, last, split⟩
  · left
    rw [linesBefore, empty, List.flatMap_nil]
  · right
    refine ⟨earlier.flatMap (· ++ ['\n']) ++ last, ?_⟩
    rw [linesBefore, split, List.concat_eq_append, List.flatMap_append, List.flatMap_singleton,
      List.append_assoc]

/-- After all but the last of some texts stands a line feed. -/
theorem exists_linesAfter_eq {texts : List Text} {number : Nat} (more : number + 1 < texts.length) :
    ∃ later, linesAfter number texts = '\n' :: later := by
  rw [linesAfter, List.drop_eq_getElem_cons more]
  exact ⟨_, rfl⟩

theorem linesAfter_of_last {texts : List Text} {number : Nat} (last : texts.length ≤ number + 1) :
    linesAfter number texts = [] := by
  rw [linesAfter, List.drop_eq_nil_of_le last, List.flatMap_nil]

theorem stopsLine_linesAfter (number : Nat) (texts : List Text) :
    StopsLine (linesAfter number texts) := by
  by_cases more : number + 1 < texts.length
  · exact .inr (exists_linesAfter_eq more)
  · exact .inl (linesAfter_of_last (Nat.le_of_not_lt more))

theorem stretchesOf_append (position : Nat) (first second : List Text) :
    stretchesOf position (first ++ second) = stretchesOf position first ++
      stretchesOf (position + sizeBefore List.length first.length first) second := by
  induction first generalizing position with
  | nil => simp [stretchesOf, sizeBefore]
  | cons line others ih =>
    simp only [List.cons_append, stretchesOf, ih, List.length_cons, sizeBefore, List.cons.injEq,
      true_and]
    congr 2
    omega

/-- A line feed parts the lines before it from those after it, as stretches too. -/
theorem lineStretches_append_feed (position : Nat) (before after : Text) :
    lineStretches position (before ++ '\n' :: after) =
      lineStretches position before ++ lineStretches (position + before.length + 1) after := by
  rw [lineStretches, lines_append_feed, stretchesOf_append, sizeBefore_lines]
  rfl

/-- Lines further on are the same lines, moved. -/
theorem stretchesOf_add (position distance : Nat) (texts : List Text) :
    stretchesOf (position + distance) texts =
      (stretchesOf position texts).map fun line => ⟨line.start + distance, line.stop + distance⟩ := by
  induction texts generalizing position with
  | nil => rfl
  | cons line others ih =>
    have stop : position + distance + line.length = position + line.length + distance := by omega
    have next : position + line.length + distance + 1 = position + line.length + 1 + distance := by
      omega
    simp only [stretchesOf, List.map_cons, stop, next, ih]

theorem length_stretchesOf (position : Nat) (texts : List Text) :
    (stretchesOf position texts).length = texts.length := by
  induction texts generalizing position with
  | nil => rfl
  | cons line others ih => simp [stretchesOf, ih]

/-- Each line starts after the lines before it. -/
theorem getElem?_stretchesOf (position : Nat) (texts : List Text) (line : Nat) :
    (stretchesOf position texts)[line]? = texts[line]?.map fun text =>
      ⟨position + sizeBefore List.length line texts,
        position + sizeBefore List.length line texts + text.length⟩ := by
  induction texts generalizing position line with
  | nil => simp [stretchesOf]
  | cons first others ih =>
    cases line with
    | zero => simp [stretchesOf, sizeBefore]
    | succ line =>
      have moved : position + first.length + 1 + sizeBefore List.length line others =
          position + (first.length + 1 + sizeBefore List.length line others) := by omega
      simp [stretchesOf, ih, sizeBefore, moved]

/-- Each of some lines stands between the first position and the last. -/
theorem mem_stretchesOf_bounds {position : Nat} {texts : List Text} {line : Stretch}
    (member : line ∈ stretchesOf position texts) :
    position ≤ line.start ∧ line.start ≤ line.stop ∧
      line.stop + 1 ≤ position + sizeBefore List.length texts.length texts := by
  induction texts generalizing position with
  | nil => simp [stretchesOf] at member
  | cons first others ih =>
    rw [stretchesOf, List.mem_cons] at member
    simp only [List.length_cons, sizeBefore]
    rcases member with rfl | later
    · simp only
      omega
    · have bounds := ih later
      omega

theorem pairwise_stretchesOf (position : Nat) (texts : List Text) :
    (stretchesOf position texts).Pairwise fun earlier later => earlier.stop < later.start := by
  induction texts generalizing position with
  | nil => exact List.Pairwise.nil
  | cons line others ih =>
    refine List.pairwise_cons.mpr ⟨fun later member => ?_, ih _⟩
    have bounds := mem_stretchesOf_bounds member
    simp only
    omega

/-- The next line starts after the line feed at the stop of a line. -/
theorem start_of_getElem?_succ {position : Nat} {texts : List Text} {line : Nat}
    {stretch next : Stretch} (there : (stretchesOf position texts)[line]? = some stretch)
    (follows : (stretchesOf position texts)[line + 1]? = some next) :
    next.start = stretch.stop + 1 := by
  rw [getElem?_stretchesOf] at there follows
  obtain ⟨content, found, rfl⟩ := Option.map_eq_some_iff.mp there
  obtain ⟨-, -, rfl⟩ := Option.map_eq_some_iff.mp follows
  rw [sizeBefore_succ List.length found]
  simp only
  omega

theorem stop_of_last {text : Text} {line : Nat} {stretch : Stretch}
    (there : (lineStretches 0 text)[line]? = some stretch)
    (last : line + 1 = (lines text).length) : stretch.stop = text.length := by
  rw [lineStretches, getElem?_stretchesOf] at there
  obtain ⟨content, found, rfl⟩ := Option.map_eq_some_iff.mp there
  have whole := sizeBefore_lines text
  rw [← last, sizeBefore_succ List.length found] at whole
  simp only
  omega

/-- Before a line feed, and at the end of the text, a line stops. -/
theorem exists_line_stop (before : Text) {after : Text} (stops : StopsLine after) :
    ∃ line stretch, (lineStretches 0 (before ++ after))[line]? = some stretch ∧
      stretch.stop = before.length ∧
      (after = [] → line + 1 = (lines (before ++ after)).length) := by
  have filled := List.length_pos_iff.mpr (lines_ne_nil before)
  have valid : (lines before).length - 1 < (lineStretches 0 before).length := by
    rw [lineStretches, length_stretchesOf]
    omega
  have there := List.getElem?_eq_getElem valid
  have stop := stop_of_last there (by omega)
  rcases stops with rfl | ⟨later, rfl⟩
  · rw [List.append_nil]
    exact ⟨_, _, there, stop, fun _ => by omega⟩
  · rw [lineStretches_append_feed]
    exact ⟨_, _, (List.getElem?_append_left valid).trans there, stop,
      fun empty => absurd empty (List.cons_ne_nil _ _)⟩

theorem mem_lineStretches_bounds {position : Nat} {text : Text} {line : Stretch}
    (member : line ∈ lineStretches position text) :
    position ≤ line.start ∧ line.start ≤ line.stop ∧ line.stop ≤ position + text.length := by
  have bounds := mem_stretchesOf_bounds member
  rw [sizeBefore_lines] at bounds
  omega

/-- Whole lines in the middle of a text are lines of that text, and the others are apart from them. -/
theorem exists_lineStretches_eq {before after : Text} (starts : StartsLine before)
    (stops : StopsLine after) (middle : Text) :
    ∃ earlier later, lineStretches 0 (before ++ middle ++ after) =
        earlier ++ lineStretches before.length middle ++ later ∧
      (∀ line ∈ earlier, line.stop ≤ before.length) ∧
      ∀ line ∈ later, before.length + middle.length ≤ line.start := by
  obtain ⟨later, upTo, apart⟩ : ∃ later, lineStretches 0 (before ++ middle ++ after) =
      lineStretches 0 (before ++ middle) ++ later ∧
      ∀ line ∈ later, before.length + middle.length ≤ line.start := by
    rcases stops with rfl | ⟨rest, rfl⟩
    · exact ⟨[], by simp, by simp⟩
    · refine ⟨_, lineStretches_append_feed 0 (before ++ middle) rest, fun line member => ?_⟩
      have bounds := mem_lineStretches_bounds member
      rw [List.length_append] at bounds
      omega
  rcases starts with rfl | ⟨rest, rfl⟩
  · exact ⟨[], later, by simpa using upTo, by simp, apart⟩
  · refine ⟨lineStretches 0 rest, later, ?_, fun line member => ?_, apart⟩
    · rw [upTo, List.append_assoc rest, List.singleton_append, lineStretches_append_feed,
        List.length_append, List.length_singleton, Nat.zero_add]
    · have bounds := mem_lineStretches_bounds member
      rw [List.length_append]
      omega

/-- What stands in texts put together, unless it is a line feed, stands in one of the texts. -/
theorem exists_text_of_joinLines {texts : List Text} {place : Nat}
    (there : (joinLines texts)[place]?.any (· != '\n') = true) :
    ∃ number content, texts[number]? = some content ∧
      sizeBefore List.length number texts ≤ place ∧
      place < sizeBefore List.length number texts + content.length := by
  induction texts generalizing place with
  | nil => exact absurd there nofun
  | cons first others ih =>
    by_cases here : place < first.length
    · exact ⟨0, first, rfl, Nat.zero_le _, by rwa [sizeBefore, Nat.zero_add]⟩
    · obtain ⟨later, rfl⟩ : ∃ later, place = first.length + later :=
        ⟨place - first.length, by omega⟩
      rw [joinLines_cons_eq, List.getElem?_append_right (by omega), Nat.add_sub_cancel_left] at there
      cases others with
      | nil => exact absurd there nofun
      | cons next rest =>
        have whole : (next :: rest).flatMap ('\n' :: ·) = '\n' :: joinLines (next :: rest) := by
          rw [joinLines_cons_eq, List.flatMap_cons, List.cons_append]
        rw [whole] at there
        cases later with
        | zero => exact absurd there nofun
        | succ later =>
          obtain ⟨number, content, found, starts, stops⟩ := ih there
          refine ⟨number + 1, content, found, ?_, ?_⟩
          · rw [sizeBefore]
            omega
          · rw [sizeBefore]
            omega

/-- What stands in one of some texts stands there in the texts put together. -/
theorem getElem?_joinLines {texts : List Text} {number : Nat} {content : Text}
    (there : texts[number]? = some content) {place : Nat} (inside : place < content.length) :
    (joinLines texts)[sizeBefore List.length number texts + place]? = content[place]? := by
  rw [joinLines_eq there, ← length_linesBefore, List.append_assoc,
    List.getElem?_append_right (Nat.le_add_right _ _), Nat.add_sub_cancel_left,
    List.getElem?_append_left inside]

/-- A character stands on a line exactly if it is no line feed. -/
theorem exists_line_iff {text : Text} {place : Nat} :
    (∃ line ∈ lineStretches 0 text, line.start ≤ place ∧ place < line.stop) ↔
      text[place]?.any (· != '\n') = true := by
  constructor
  · rintro ⟨line, member, starts, stops⟩
    obtain ⟨number, there⟩ := List.mem_iff_getElem?.mp member
    rw [lineStretches, getElem?_stretchesOf, Nat.zero_add] at there
    obtain ⟨content, found, rfl⟩ := Option.map_eq_some_iff.mp there
    obtain ⟨index, rfl⟩ := Nat.exists_eq_add_of_le starts
    have inside : index < content.length := Nat.lt_of_add_lt_add_left stops
    have same := getElem?_joinLines found inside
    rw [joinLines_lines] at same
    rw [same, List.getElem?_eq_getElem inside, Option.any_some, bne_iff_ne]
    intro feed
    exact not_mem_of_mem_lines (List.mem_of_getElem? found) (feed ▸ List.getElem_mem inside)
  · intro there
    rw [← joinLines_lines text] at there
    obtain ⟨number, content, found, starts, stops⟩ := exists_text_of_joinLines there
    have line := getElem?_stretchesOf 0 (lines text) number
    rw [found, Option.map_some, Nat.zero_add] at line
    exact ⟨_, List.mem_of_getElem? line, starts, stops⟩

theorem lineStarts_eq_map (text : Text) :
    lineStarts text = (lineStretches 0 text).map (·.start) := by
  suffices after : ∀ position, position :: startsAfter position text =
      (lineStretches position text).map (·.start) from after 0
  induction text with
  | nil => intro position; rfl
  | cons c rest ih =>
    intro position
    by_cases feed : c = '\n'
    · simp only [startsAfter, lineStretches, feed, if_true, lines_feed_cons, stretchesOf,
        List.map_cons, List.cons.injEq, true_and]
      exact ih (position + 1)
    · obtain ⟨line, others, split⟩ := List.exists_cons_of_ne_nil (lines_ne_nil rest)
      have later := ih (position + 1)
      have moved : position + 1 + line.length + 1 = position + (line.length + 1) + 1 := by omega
      simp only [lineStretches, split, stretchesOf, List.map_cons, List.cons.injEq, true_and,
        moved] at later
      simp only [startsAfter, lineStretches, lines, feed, if_false, split, stretchesOf,
        List.map_cons, List.length_cons, List.cons.injEq, true_and]
      exact later

end Text

end KotlinHighlight
