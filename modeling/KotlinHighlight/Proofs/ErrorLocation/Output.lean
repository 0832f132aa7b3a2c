import KotlinHighlight.OutputPane
import KotlinHighlight.Proofs.Lines

/-! # Locations in output that comes in pieces

The locations in some output are those of its lines (`mem_findAll_iff`). So where a line feed parts the
output its pieces can be searched one by one (`findAll_append_feed`), and the output pane, which looks
at one line at a time, marks just the lines that the search of the whole output names
(`findAll_piecewise_and_painted`).
-/

namespace KotlinHighlight

namespace ErrorLocation

/-- The locations in some lines, of which the first has a number. -/
def locationsFrom (number : Nat) (lines : List Text) : List (Nat × ErrorLocation) :=
  (lines.zipIdx number).filterMap fun (line, number) => (parse? line).map (number, ·)

theorem findAll_eq (output : Text) : findAll output = locationsFrom 0 (Text.lines output) :=
  rfl

theorem locationsFrom_cons (number : Nat) (line : Text) (others : List Text) :
    locationsFrom number (line :: others) =
      ((parse? line).map (number, ·)).toList ++ locationsFrom (number + 1) others := by
  rw [locationsFrom, List.zipIdx_cons, List.filterMap_cons]
  dsimp only
  cases parse? line with
  | none => rfl
  | some location => rfl

theorem locationsFrom_append (number : Nat) (first second : List Text) :
    locationsFrom number (first ++ second) =
      locationsFrom number first ++ locationsFrom (number + first.length) second := by
  rw [locationsFrom, List.zipIdx_append, List.filterMap_append]
  rfl

/-- Lines that are counted from another number have their locations there. -/
theorem locationsFrom_add (number distance : Nat) (lines : List Text) :
    locationsFrom (number + distance) lines =
      (locationsFrom number lines).map fun (number, location) => (number + distance, location) := by
  induction lines generalizing number with
  | nil => rfl
  | cons line others ih =>
    have later := ih (number + 1)
    rw [Nat.add_right_comm] at later
    rw [locationsFrom_cons, locationsFrom_cons, later, List.map_append]
    cases parse? line with
    | none => rfl
    | some location => rfl

/-- A location is one of a line, under the number of the line. -/
theorem mem_findAll_iff {output : Text} {number : Nat} {location : ErrorLocation} :
    (number, location) ∈ findAll output ↔
      ∃ line, (Text.lines output)[number]? = some line ∧ parse? line = some location := by
  rw [findAll, List.mem_filterMap]
  constructor
  · rintro ⟨⟨line, _⟩, member, found⟩
    obtain ⟨_, parsed, same⟩ := Option.map_eq_some_iff.mp found
    obtain ⟨rfl, rfl⟩ := Prod.mk.inj same
    exact ⟨line, List.mem_zipIdx_iff_getElem?.mp member, parsed⟩
  · rintro ⟨line, there, parsed⟩
    refine ⟨(line, number), List.mem_zipIdx_iff_getElem?.mpr there, ?_⟩
    dsimp only
    rw [parsed, Option.map_some]

/-- Output before a line feed and output after it have their own locations. -/
theorem findAll_append_feed (before after : Text) :
    findAll (before ++ '\n' :: after) = findAll before ++
      (findAll after).map fun (number, location) =>
        (number + (1 + before.count '\n'), location) := by
  have counted := locationsFrom_add 0 (1 + before.count '\n') (Text.lines after)
  rw [findAll_eq, findAll_eq, findAll_eq, Text.lines_append_feed, locationsFrom_append,
    Text.length_lines, Nat.add_comm (before.count '\n'), counted]

end ErrorLocation

namespace OutputPane

open Editor (Screen)
open ErrorLocation (findAll parse?)

variable (pane : OutputPane) (screen : Screen)

/-- Each line is painted under its number. -/
theorem getElem?_paint (blocks : List Text) (number : Nat) :
    (pane.paint screen blocks)[number]? =
      blocks[number]?.map fun block => ⟨number, pane.formatsOf screen block, none⟩ := by
  rw [paint, List.getElem?_map, List.getElem?_zipIdx, Option.map_map, Nat.zero_add]
  rfl

/-- A line that carries a location is marked as a whole. -/
theorem formatsOf_of_some {block : Text} {location : ErrorLocation}
    (found : parse? block = some location) :
    pane.formatsOf screen block = [⟨0, block.length, pane.format screen⟩] := by
  rw [formatsOf, found]
  rfl

theorem formatsOf_of_none {block : Text} (nothing : parse? block = none) :
    pane.formatsOf screen block = [] := by
  rw [formatsOf, nothing]
  rfl

end OutputPane

namespace ErrorLocation

open Editor (Screen)
open OutputPane (location?)

/-- Output that a line feed parts has the locations of the one part and, counted on, those of the
other. Of lines that are put together the pane marks just those under whose number the whole has a
location, each over all of its characters, and such a line carries that location. -/
theorem findAll_piecewise_and_painted :
    (∀ before after : Text, findAll (before ++ '\n' :: after) = findAll before ++
      (findAll after).map fun (number, location) =>
        (number + (1 + before.count '\n'), location)) ∧
    ∀ (pane : OutputPane) (screen : Screen) (blocks : List Text),
      (∀ block ∈ blocks, '\n' ∉ block) → ∀ number block, blocks[number]? = some block →
        (pane.paint screen blocks)[number]? =
          some ⟨number, pane.formatsOf screen block, none⟩ ∧
        (∀ location, (number, location) ∈ findAll (Text.joinLines blocks) →
          pane.formatsOf screen block = [⟨0, block.length, pane.format screen⟩] ∧
            location? (some block) = some location) ∧
        ((∀ location, (number, location) ∉ findAll (Text.joinLines blocks)) →
          pane.formatsOf screen block = [] ∧ location? (some block) = none) := by
  refine ⟨findAll_append_feed, fun pane screen blocks unbroken number block there => ?_⟩
  have nonempty : blocks ≠ [] := List.ne_nil_of_mem (List.mem_of_getElem? there)
  have lines := Text.lines_joinLines nonempty unbroken
  refine ⟨?_, fun location found => ?_, fun nowhere => ?_⟩
  · rw [pane.getElem?_paint, there, Option.map_some]
  · obtain ⟨line, here, parsed⟩ := mem_findAll_iff.mp found
    rw [lines, there] at here
    obtain rfl := Option.some.inj here
    exact ⟨pane.formatsOf_of_some screen parsed, parsed⟩
  · have nothing : parse? block = none := by
      rw [Option.eq_none_iff_forall_ne_some]
      intro location parsed
      refine nowhere location (mem_findAll_iff.mpr ⟨block, ?_, parsed⟩)
      rw [lines, there]
    exact ⟨pane.formatsOf_of_none screen nothing, nothing⟩

/-- The second of three lines is marked: a carriage return belongs to it, and the cut after it leaves its
number as it is. -/
theorem findAll_piecewise_and_painted_of_carriageReturn :
    let blocks := ["1:2".toList, "script.kts:3:9: e\r".toList, ":4:5".toList]
    let location : ErrorLocation := ⟨3, 9, "script.kts:3:9: e\r".toList⟩
    let pane : OutputPane := {}
    let screen : Screen := ⟨fun _ => true⟩
    ((∀ block ∈ blocks, '\n' ∉ block) ∧ (1, location) ∈ findAll (Text.joinLines blocks)) ∧
      pane.formatsOf screen "script.kts:3:9: e\r".toList = [⟨0, 18, pane.format screen⟩] ∧
      OutputPane.location? (some "script.kts:3:9: e\r".toList) = some location ∧
      findAll ("1:2\nscript.kts:3:9: e\r".toList ++ '\n' :: "6:7:".toList) =
        [(1, location), (2, ⟨6, 7, "6:7:".toList⟩)] := by
  intro blocks location pane screen
  obtain ⟨piecewise, painted⟩ := findAll_piecewise_and_painted
  have unbroken : ∀ block ∈ blocks, '\n' ∉ block := by decide
  have found : (1, location) ∈ findAll (Text.joinLines blocks) := by decide
  obtain ⟨-, marked, -⟩ := painted pane screen blocks unbroken 1 _ rfl
  obtain ⟨format, carried⟩ := marked location found
  exact ⟨⟨unbroken, found⟩, format, carried, (piecewise _ _).trans (by decide)⟩

end ErrorLocation

end KotlinHighlight
