import KotlinHighlight.Proofs.Highlight.Window

/-! # Highlighting line by line

All that a line takes over from the lines before it is the category that the line before it ended in
(`line_depends_on_state`). The kinds of regions that line feeds may stand in are told apart by their
categories, so the category says which region goes on, and a line looks as it does after the bare
opener of such a region.
-/

namespace KotlinHighlight

namespace Region

theorem pending_eq_of_category_eq {first second : Text}
    (same : (pending first).map (·.category) = (pending second).map (·.category)) :
    pending first = pending second := by
  have goesOn : ∀ text kind, pending text = some kind → kind = .blockComment ∨ kind = .rawString := by
    intro text kind leaves
    have closes := closer?_isSome_of_pending leaves
    cases kind <;> first | exact .inl rfl | exact .inr rfl | exact absurd closes nofun
  cases one : pending first with
  | none =>
    cases other : pending second with
    | none => rfl
    | some kind => simp [one, other] at same
  | some kind =>
    cases other : pending second with
    | none => simp [one, other] at same
    | some kind' =>
      rw [one, other, Option.map_some, Option.map_some, Option.some.injEq] at same
      rcases goesOn first kind one with rfl | rfl <;>
        rcases goesOn second kind' other with rfl | rfl <;> first | rfl | exact absurd same nofun

end Region

namespace Highlight

open Region (pending pendingAfter)
open Text (lineStretches linesBefore linesAfter)

/-- The kind of the region that is open before one of some lines. -/
def carriedInto (texts : List Text) (number : Nat) : Option RegionKind :=
  pending (linesBefore number texts)

/-- Each line takes over a region and passes one on. -/
theorem carriedInto_succ {texts : List Text} {number : Nat} {content : Text}
    (there : texts[number]? = some content) :
    carriedInto texts (number + 1) = pendingAfter (carriedInto texts number) content := by
  rw [carriedInto, Text.linesBefore_succ there, Region.pending_append_singleton_feed,
    Region.pending_append (Text.startsLine_linesBefore number texts), carriedInto]

section Lines

variable {texts : List Text} {text : Text} (whole : text = Text.joinLines texts) {number : Nat}
  {content : Text} (there : texts[number]? = some content)
include whole there

/-- What is shown of one of some lines depends on it and on the region that is open before it. -/
theorem shown_eq_linesShown (palette : Palette) :
    ((indexOf palette text).spansBetween (Text.sizeBefore List.length number texts)
        (Text.sizeBefore List.length number texts + content.length)).map Piece.shown =
      linesShown palette (carriedInto texts number) content := by
  rw [← Text.length_linesBefore]
  exact shown_scan palette (whole.trans (Text.joinLines_eq there))
    (Text.startsLine_linesBefore number texts) (Text.stopsLine_linesAfter number texts)

/-- The position after one of some lines is in the category of the region that is open there. -/
theorem endCategory_eq_carriedInto (palette : Palette) (more : number + 1 < texts.length)
    {line : Nat} {stretch : Stretch} (found : (lineStretches 0 text)[line]? = some stretch)
    (stop : stretch.stop = Text.sizeBefore List.length number texts + content.length) :
    (indexOf palette text).endCategory line =
      (carriedInto texts (number + 1)).map (·.category) := by
  obtain ⟨later, feed⟩ := Text.exists_linesAfter_eq more
  have split := whole.trans (Text.joinLines_eq there)
  rw [feed] at split
  rw [carriedInto, Text.linesBefore_succ there, Region.pending_append_singleton_feed]
  apply endCategory_scan palette split found
  rw [stop, List.length_append, Text.length_linesBefore]

end Lines

/-- What is shown of a line of a text, from its start to its end without the line feed. -/
def lineShown (palette : Palette) (text : Text) (line : Nat) : List Span :=
  let start := Text.sizeBefore List.length line (Text.lines text)
  let content := (Text.lines text).getD line []
  ((indexOf palette text).spansBetween start (start + content.length)).map Piece.shown

/-- The state in which a line of a text starts: the category that the line before it ends in. -/
def stateBefore (palette : Palette) (text : Text) (line : Nat) : Option Category :=
  (indexOf palette text).endCategory (line - 1)

/-- A line of its own that ends in a state. -/
def stateOpener : Option Category → Text
  | none => []
  | some .comment => ['/', '*']
  | some _ => Region.rawQuotes

theorem lineShown_eq (palette : Palette) {text : Text} {line : Nat} {content : Text}
    (there : (Text.lines text)[line]? = some content) :
    lineShown palette text line = linesShown palette (carriedInto (Text.lines text) line) content := by
  rw [lineShown, List.getD_eq_getElem?_getD, there, Option.getD_some]
  exact shown_eq_linesShown (Text.joinLines_lines text).symm there palette

/-- A line that is not the last ends in the category of the region that goes on after it. -/
theorem endCategory_eq (palette : Palette) {text : Text} {line : Nat}
    (more : line + 1 < (Text.lines text).length) :
    (indexOf palette text).endCategory line =
      (carriedInto (Text.lines text) (line + 1)).map (·.category) := by
  have there := List.getElem?_eq_getElem (Nat.lt_of_succ_lt more)
  have found := Text.getElem?_stretchesOf 0 (Text.lines text) line
  rw [there, Option.map_some, Nat.zero_add] at found
  exact endCategory_eq_carriedInto (Text.joinLines_lines text).symm there palette more found rfl

theorem stateBefore_eq (palette : Palette) {text : Text} {line : Nat}
    (valid : line < (Text.lines text).length) :
    stateBefore palette text line =
      (carriedInto (Text.lines text) line).map (·.category) := by
  cases line with
  | zero => rfl
  | succ line =>
    have previous : ((line + 1 : Nat) : Int) - 1 = line := by omega
    rw [stateBefore, previous, endCategory_eq palette valid]

/-- The bare opener of a region is told by its category. -/
theorem stateOpener_eq_leadIn (text : Text) :
    stateOpener ((pending text).map (·.category)) = Region.leadIn (pending text) := by
  cases leaves : pending text with
  | none => rfl
  | some kind =>
    have closes := Region.closer?_isSome_of_pending leaves
    cases kind <;> first | rfl | exact absurd closes nofun

/-- After the bare opener of what a text leaves open, the same is open. -/
theorem carriedInto_leadIn (text : Text) (others : List Text) :
    carriedInto (Region.leadIn (pending text) :: others) 1 = pending text := by
  have first : linesBefore 1 (Region.leadIn (pending text) :: others) =
      Region.leadIn (pending text) ++ ['\n'] := by
    simp [linesBefore]
  rw [carriedInto, first, Region.pending_append_singleton_feed, Region.pending_leadIn_pending]

/-- A bare opener is a line of its own. -/
theorem lines_leadIn_append_feed (text later : Text) :
    Text.lines (Region.leadIn (pending text) ++ '\n' :: later) =
      Region.leadIn (pending text) :: Text.lines later := by
  have unbroken : '\n' ∉ Region.leadIn (pending text) := by
    cases pending text with
    | none => exact List.not_mem_nil
    | some kind => exact Region.not_mem_opener kind
  rw [Text.lines_append_feed, Text.lines_of_not_mem unbroken, List.singleton_append]

/-- A line starts in one of three states. -/
theorem stateBefore_mem (palette : Palette) {text : Text} {line : Nat}
    (valid : line < (Text.lines text).length) :
    stateBefore palette text line ∈ [none, some .comment, some .string] := by
  rw [stateBefore_eq palette valid]
  cases carriedInto (Text.lines text) line with
  | none => decide
  | some kind => cases kind <;> decide

/-- A line looks as it does after the bare opener of the state in which it starts, and it ends in
the same category. -/
theorem line_eq_alone (palette : Palette) {text : Text} {line : Nat} {content : Text}
    (there : (Text.lines text)[line]? = some content) :
    let alone := stateOpener (stateBefore palette text line) ++ '\n' :: content
    lineShown palette text line = lineShown palette alone 1 ∧
      (line + 1 < (Text.lines text).length →
        (indexOf palette text).endCategory line =
          (indexOf palette (alone ++ ['\n'])).endCategory 1) := by
  have valid := (List.getElem?_eq_some_iff.mp there).1
  have unbroken := Text.not_mem_of_mem_lines (List.mem_of_getElem? there)
  rw [stateBefore_eq palette valid, carriedInto, stateOpener_eq_leadIn]
  intro alone
  have lines : Text.lines alone =
      [Region.leadIn (carriedInto (Text.lines text) line), content] := by
    rw [lines_leadIn_append_feed, Text.lines_of_not_mem unbroken]
    rfl
  have second : (Text.lines alone)[1]? = some content := by
    rw [lines]
    rfl
  have carried := carriedInto_leadIn (linesBefore line (Text.lines text))
  constructor
  · rw [lineShown_eq palette there, lineShown_eq palette second, lines]
    exact congrArg (linesShown palette · content) (carried [content]).symm
  · intro more
    have fed : Text.lines (alone ++ ['\n']) =
        [Region.leadIn (carriedInto (Text.lines text) line), content, []] := by
      rw [Text.lines_append_feed, lines]
      rfl
    have second' : (Text.lines (alone ++ ['\n']))[1]? = some content := by
      rw [fed]
      rfl
    have more' : 1 + 1 < (Text.lines (alone ++ ['\n'])).length := by
      rw [fed]
      exact Nat.lt_succ_self _
    have ending := endCategory_eq palette more'
    rw [carriedInto_succ second', fed] at ending
    rw [endCategory_eq palette more, carriedInto_succ there]
    refine Eq.trans ?_ ending.symm
    exact congrArg (fun kind => (pendingAfter kind content).map (·.category))
      (carried [content, []]).symm

/-- Equal lines look the same from a place on where they start in the same state. -/
theorem common_lines_eq (palette : Palette) {text other : Text} {common : List Text}
    {first second : Nat} (one : common <+: (Text.lines text).drop first)
    (another : common <+: (Text.lines other).drop second)
    (same : stateBefore palette text first = stateBefore palette other second) {number : Nat}
    (within : number < common.length) :
    lineShown palette text (first + number) = lineShown palette other (second + number) ∧
      stateBefore palette text (first + number) = stateBefore palette other (second + number) := by
  have there : ∀ {text : Text} {start index : Nat} {content : Text},
      common <+: (Text.lines text).drop start → common[index]? = some content →
      (Text.lines text)[start + index]? = some content := by
    intro text start index content inside found
    obtain ⟨more, split⟩ := inside
    rw [← List.getElem?_drop, ← split,
      List.getElem?_append_left (List.getElem?_eq_some_iff.mp found).1, found]
  have carried : ∀ number < common.length, carriedInto (Text.lines text) (first + number) =
      carriedInto (Text.lines other) (second + number) := by
    intro number within
    induction number with
    | zero =>
      have content := List.getElem?_eq_getElem within
      rw [← Nat.add_zero first, ← Nat.add_zero second,
        stateBefore_eq palette (List.getElem?_eq_some_iff.mp (there one content)).1,
        stateBefore_eq palette (List.getElem?_eq_some_iff.mp (there another content)).1] at same
      exact Region.pending_eq_of_category_eq same
    | succ number ih =>
      have content := List.getElem?_eq_getElem (Nat.lt_of_succ_lt within)
      rw [← Nat.add_assoc, ← Nat.add_assoc, carriedInto_succ (there one content),
        carriedInto_succ (there another content), ih (Nat.lt_of_succ_lt within)]
  have content := List.getElem?_eq_getElem within
  rw [lineShown_eq palette (there one content), lineShown_eq palette (there another content),
    stateBefore_eq palette (List.getElem?_eq_some_iff.mp (there one content)).1,
    stateBefore_eq palette (List.getElem?_eq_some_iff.mp (there another content)).1,
    carried number within]
  exact ⟨rfl, rfl⟩

/-- A line takes over from the lines before it only the category that the line before it ended in:
it looks as it does after a bare opener of that category, and it ends in the same category. So
equal lines look the same from a place on where they start in the same state, and what comes after
them changes nothing. -/
theorem line_depends_on_state (palette : Palette) (text : Text) :
    (∀ line content, (Text.lines text)[line]? = some content →
      let state := stateBefore palette text line
      let alone := stateOpener state ++ '\n' :: content
      state ∈ [none, some .comment, some .string] ∧
      lineShown palette text line = lineShown palette alone 1 ∧
      (line + 1 < (Text.lines text).length →
        (indexOf palette text).endCategory line =
          (indexOf palette (alone ++ ['\n'])).endCategory 1)) ∧
    (∀ other common, common <+: Text.lines text → common <+: Text.lines other →
      ∀ number < common.length, lineShown palette text number = lineShown palette other number) ∧
    ∀ other common first second, common <+: (Text.lines text).drop first →
      common <+: (Text.lines other).drop second →
      stateBefore palette text first = stateBefore palette other second →
      ∀ number < common.length,
        lineShown palette text (first + number) = lineShown palette other (second + number) ∧
        stateBefore palette text (first + number) = stateBefore palette other (second + number) := by
  refine ⟨?_, ?_, ?_⟩
  · intro line content there
    have valid := (List.getElem?_eq_some_iff.mp there).1
    exact ⟨stateBefore_mem palette valid, line_eq_alone palette there⟩
  · intro other common one another number within
    have start : stateBefore palette text 0 = stateBefore palette other 0 := rfl
    have both := common_lines_eq palette one another start within
    rw [Nat.zero_add] at both
    exact both.1
  · intro other common first second one another same number within
    exact common_lines_eq palette one another same within

/-- A line that starts inside a comment, after more lines and alone. -/
theorem line_depends_on_state_in_comment :
    lineShown .default ['1', '\n', '/', '*', '\n', '2', '*', '/', '3'] 2 =
      lineShown .default (stateOpener
        (stateBefore .default ['1', '\n', '/', '*', '\n', '2', '*', '/', '3'] 2) ++
          '\n' :: ['2', '*', '/', '3']) 1 := by
  have there : (Text.lines ['1', '\n', '/', '*', '\n', '2', '*', '/', '3'])[2]? =
      some ['2', '*', '/', '3'] := by decide
  exact ((line_depends_on_state .default ['1', '\n', '/', '*', '\n', '2', '*', '/', '3']).1 2
    ['2', '*', '/', '3'] there).2.1

end Highlight

end KotlinHighlight
