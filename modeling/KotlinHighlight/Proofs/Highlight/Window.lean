import KotlinHighlight.Proofs.Highlight.Apart
import KotlinHighlight.Proofs.LineIndex
import KotlinHighlight.Proofs.Region.Pending

/-! # Highlighting by lines

What the scan marks in some lines of a text depends on those lines and on the kind of the region that
is left open before them, and on nothing else of the text (`seen_scan`). So does what a line index
shows of them (`shown_scan`), and the category that a line ends in is that of the region that is left
open there (`endCategory_scan`).
-/

namespace KotlinHighlight

namespace Region

theorem kind_of_seen? {start stop : Nat} {region part : Region}
    (seen : region.seen? start stop = some part) : part.kind = region.kind := by
  rw [seen?, Option.ite_none_right_eq_some] at seen
  obtain ⟨-, same⟩ := seen
  rw [← Option.some.inj same]

theorem seen?_span (palette : Palette) (category : Category) (start stop : Nat) (region : Region) :
    (region.span palette category).seen? start stop =
      (region.seen? start stop).map (·.span palette category) := by
  by_cases touches : max region.start start < min region.stop stop
  · have part : region.seen? start stop = some _ := if_pos touches
    have left : ((max region.start start - start : Nat) : Int) =
        max (region.start : Int) start - start := by omega
    have right : ((min region.stop stop - start : Nat) : Int) =
        min (region.stop : Int) stop - start := by omega
    rw [part, Option.map_some, Span.seen?_of_lt (by simp only [span]; omega)]
    simp only [span, left, right]
  · have part : region.seen? start stop = none := if_neg touches
    rw [part, Option.map_none, Span.seen?_of_le]
    simp only [span]
    omega

/-- A position is inside a region if it is inside what is seen of it. -/
theorem any_holds_seen (regions : List Region) (start : Nat) {size place : Nat} (within : place < size) :
    (regions.filterMap (seen? start (start + size))).any (·.holds place) =
      regions.any (·.holds (start + place : Nat)) := by
  rw [Bool.eq_iff_iff, List.any_eq_true, List.any_eq_true]
  constructor
  · rintro ⟨part, member, holds⟩
    obtain ⟨region, inside, seen⟩ := List.mem_filterMap.mp member
    rw [seen?, Option.ite_none_right_eq_some] at seen
    obtain ⟨-, same⟩ := seen
    obtain rfl := Option.some.inj same
    refine ⟨region, inside, ?_⟩
    rw [holds_iff] at holds ⊢
    simp only at holds
    omega
  · rintro ⟨region, inside, holds⟩
    rw [holds_iff] at holds
    have overlap : max region.start start < min region.stop (start + size) := by omega
    refine ⟨_, List.mem_filterMap.mpr ⟨region, inside, if_pos overlap⟩, ?_⟩
    rw [holds_iff]
    simp only
    omega

end Region

namespace Pattern

variable {accepts : Char → Bool} {pattern : Pattern}

/-- The matches in some lines of a text are the matches of those lines, and the others are apart from
them. -/
theorem exists_stretches_eq (words : ∀ c, Unicode.isWord c = true → accepts c = true)
    (within : pattern.Within accepts) (parts : accepts '\n' = false) {before after : Text}
    (starts : Text.StartsLine before) (stops : Text.StopsLine after) (middle : Text) :
    ∃ earlier later, pattern.stretches (before ++ middle ++ after) =
        earlier ++ (pattern.stretches middle).map (·.moved before.length) ++ later ∧
      (∀ stretch ∈ earlier, stretch.stop ≤ before.length) ∧
      ∀ stretch ∈ later, before.length + middle.length ≤ stretch.start := by
  obtain ⟨later, upTo, apart⟩ : ∃ later, pattern.stretches (before ++ middle ++ after) =
      pattern.stretches (before ++ middle) ++ later ∧
      ∀ stretch ∈ later, before.length + middle.length ≤ stretch.start := by
    rcases stops with rfl | ⟨rest, rfl⟩
    · exact ⟨[], by simp, by simp⟩
    · refine ⟨_, stretches_append_separator words within parts _ rest, fun stretch member => ?_⟩
      obtain ⟨original, -, rfl⟩ := List.mem_map.mp member
      simp only [Stretch.moved, List.length_append]
      omega
  rcases starts with rfl | ⟨rest, rfl⟩
  · exact ⟨[], later, by simpa [Stretch.moved] using upTo, by simp, apart⟩
  · refine ⟨pattern.stretches rest, later, ?_, fun stretch member => ?_, apart⟩
    · rw [upTo, List.append_assoc rest, List.singleton_append,
        stretches_append_separator words within parts, List.length_append, List.length_singleton]
    · have bounds := mem_stretches_bounds member
      rw [List.length_append]
      omega

end Pattern

namespace Highlight

open Text (lineStretches)

def spansOf (palette : Palette) (regions : List Region) (text : Text) : List Span :=
  regionSpans palette regions ++ codePasses.flatMap fun pass =>
    ((pass.1.stretches text).filter fun stretch => !regions.any (·.holds stretch.start)).map
      (·.span palette pass.2)

theorem scan_eq_spansOf (palette : Palette) (text : Text) :
    scan palette text = spansOf palette (Region.scan text) text := by
  rw [scan, codeSpans]
  simp only [RegionIndex.contains_iff]
  rfl

/-- What is seen of the spans of regions are the spans of what is seen of the regions. -/
theorem filterMap_seen?_regionSpans (palette : Palette) (regions : List Region) (start stop : Nat) :
    (regionSpans palette regions).filterMap (·.seen? start stop) =
      regionSpans palette (regions.filterMap (Region.seen? start stop)) := by
  rw [regionSpans, regionSpans, List.filterMap_flatMap]
  apply List.flatMap_congr
  intro pass _
  dsimp only
  rw [List.filterMap_map, List.filterMap_filter, List.filter_filterMap, List.map_filterMap]
  apply List.filterMap_congr
  intro region _
  simp only [Function.comp_apply, Region.seen?_span]
  cases seen : region.seen? start stop with
  | none => simp
  | some part =>
    rw [Option.map_some, Option.filter_some, Region.kind_of_seen? seen]
    split <;> simp

/-- Nothing is seen of the spans of stretches that are apart from an interval. -/
theorem filterMap_seen?_eq_nil {stretches : List Stretch} {start stop : Nat}
    (apart : ∀ stretch ∈ stretches, stretch.stop ≤ start ∨ stop ≤ stretch.start) (palette : Palette)
    (category : Category) (keep : Stretch → Bool) :
    ((stretches.filter keep).map (·.span palette category)).filterMap (·.seen? start stop) = [] := by
  rw [List.filterMap_map, List.filterMap_eq_nil_iff]
  intro stretch member
  have outside := apart stretch (List.mem_of_mem_filter member)
  refine Span.seen?_of_le ?_
  simp only [Stretch.span]
  omega

/-- What is seen of the spans of a pass, with the regions of the text, are the spans of the pass on
the lines that are seen, with what is seen of the regions. -/
theorem filterMap_seen?_codePass (palette : Palette) (regions : List Region)
    {pass : Pattern × Category} (known : pass ∈ codePasses) {before after : Text}
    (starts : Text.StartsLine before) (stops : Text.StopsLine after) (middle : Text) :
    (((pass.1.stretches (before ++ middle ++ after)).filter fun stretch =>
        !regions.any (·.holds stretch.start)).map (·.span palette pass.2)).filterMap
          (·.seen? before.length (before.length + middle.length : Nat)) =
      ((pass.1.stretches middle).filter fun stretch =>
        !(regions.filterMap (Region.seen? before.length (before.length + middle.length))).any
          (·.holds stretch.start)).map (·.span palette pass.2) := by
  obtain ⟨accepts, words, parts, -, within⟩ := exists_within_of_mem_codePasses known
  obtain ⟨earlier, later, split, early, late⟩ :=
    Pattern.exists_stretches_eq words within (parts '\n' rfl) starts stops middle
  rw [split, List.filter_append, List.filter_append, List.map_append, List.map_append,
    List.filterMap_append, List.filterMap_append,
    filterMap_seen?_eq_nil (fun stretch member => .inl (early stretch member)),
    filterMap_seen?_eq_nil (fun stretch member => .inr (late stretch member)), List.nil_append,
    List.append_nil, List.filter_map, List.map_map, List.filterMap_map, List.filterMap_filter,
    ← List.filterMap_eq_map, List.filterMap_filter]
  apply List.filterMap_congr
  intro stretch member
  obtain ⟨forward, inside⟩ := Pattern.mem_stretches_bounds member
  have place : (stretch.moved before.length).start = before.length + stretch.start :=
    Nat.add_comm _ _
  have same := Region.any_holds_seen regions before.length
    (show stretch.start < middle.length by omega)
  simp only [Function.comp_apply, place, same]
  split
  · rw [Span.seen?_of_lt (by simp only [Stretch.span, Stretch.moved]; omega)]
    simp only [Stretch.span, Stretch.moved, Option.some.injEq, Span.mk.injEq, and_true]
    omega
  · rfl

/-- The spans of lines after a text that leaves a region of a kind open. -/
def linesSpans (palette : Palette) (carried : Option RegionKind) (text : Text) : List Span :=
  spansOf palette (Region.seenAfter carried text.length text) text

/-- What is seen of the spans of a text through some of its lines depends on those lines and on what
is left open before them. -/
theorem seen_scan (palette : Palette) {before after : Text} (starts : Text.StartsLine before)
    (stops : Text.StopsLine after) (middle : Text) :
    (scan palette (before ++ middle ++ after)).filterMap
        (·.seen? before.length (before.length + middle.length : Nat)) =
      linesSpans palette (Region.pending before) middle := by
  rw [scan_eq_spansOf, spansOf, List.filterMap_append, filterMap_seen?_regionSpans,
    List.filterMap_flatMap, linesSpans, spansOf, ← Region.seen_lines starts stops middle]
  congr 1
  exact List.flatMap_congr fun pass known =>
    filterMap_seen?_codePass palette _ known starts stops middle

/-- What is shown of lines after a text that leaves a region of a kind open. -/
def linesShown (palette : Palette) (carried : Option RegionKind) (text : Text) : List Span :=
  (lineStretches 0 text).flatMap fun line =>
    (linesSpans palette carried text).filterMap (·.clip? line.start line.stop)

/-- The index of the spans of a text that a scan finds. -/
def indexOf (palette : Palette) (text : Text) : LineIndex :=
  LineIndex.ofSpans text (spans .scan palette text)

/-- What is shown of some lines of a text depends on those lines and on what is left open before
them. -/
theorem shown_scan (palette : Palette) {text before middle after : Text}
    (split : text = before ++ middle ++ after) (starts : Text.StartsLine before)
    (stops : Text.StopsLine after) :
    ((indexOf palette text).spansBetween before.length (before.length + middle.length)).map
        Piece.shown =
      linesShown palette (Region.pending before) middle := by
  subst split
  have seen := seen_scan palette starts stops middle
  rw [Int.natCast_add] at seen
  rw [indexOf, spans, LineIndex.shown_spansBetween_seen starts stops, seen, linesShown]

/-- A span that covers a line feed is that of a region around it. -/
theorem exists_region_of_covers {palette : Palette} {before after : Text} {span : Span}
    (member : span ∈ scan palette (before ++ '\n' :: after)) (starts : span.start ≤ before.length)
    (stops : before.length < span.stop) :
    ∃ region ∈ Region.scan (before ++ '\n' :: after), region.holds before.length = true ∧
      region.span palette region.kind.category = span := by
  rcases List.mem_append.mp member with inRegions | inCode
  · obtain ⟨region, inside, rfl⟩ := mem_regionSpans_iff.mp inRegions
    exact ⟨region, inside, Region.holds_iff.mpr ⟨starts, stops⟩, rfl⟩
  · obtain ⟨pass, known, inPass⟩ := List.mem_flatMap.mp inCode
    obtain ⟨stretch, kept, rfl⟩ := List.mem_map.mp inPass
    obtain ⟨accepts, words, parts, -, within⟩ := exists_within_of_mem_codePasses known
    have found := List.mem_of_mem_filter kept
    rw [Pattern.stretches_append_separator words within (parts '\n' rfl), List.mem_append] at found
    simp only [Stretch.span] at starts stops
    rcases found with early | late
    · have bounds := Pattern.mem_stretches_bounds early
      omega
    · obtain ⟨original, -, rfl⟩ := List.mem_map.mp late
      simp only [Stretch.moved] at starts
      omega

/-- A line ends in the category of the region that is left open there. -/
theorem endCategory_scan (palette : Palette) {text before after : Text}
    (split : text = before ++ '\n' :: after) {line : Nat} {stretch : Stretch}
    (there : (lineStretches 0 text)[line]? = some stretch) (stop : stretch.stop = before.length) :
    (indexOf palette text).endCategory line = (Region.pending before).map (·.category) := by
  subst split
  rw [indexOf, spans, LineIndex.endCategory_of_feed rfl _ there stop,
    ← Region.find?_holds_feed before after, Option.map_map]
  cases held : (Region.scan (before ++ '\n' :: after)).find? (·.holds before.length) with
  | none =>
    rw [Option.map_none, Option.map_eq_none_iff, List.find?_eq_none]
    intro span member covers
    obtain ⟨starts, stops⟩ := Span.covers_iff.mp covers
    obtain ⟨region, inside, holds, -⟩ := exists_region_of_covers member starts stops
    exact List.find?_eq_none.mp held region inside holds
  | some region =>
    have inside := List.mem_of_find?_eq_some held
    have holds : region.holds before.length = true := by simpa using List.find?_some held
    obtain ⟨starts, stops⟩ := Region.holds_iff.mp holds
    have marked : region.span palette region.kind.category ∈
        scan palette (before ++ '\n' :: after) :=
      List.mem_append_left _ (mem_regionSpans_iff.mpr ⟨region, inside, rfl⟩)
    obtain ⟨span, first⟩ := Option.isSome_iff_exists.mp
      (List.find?_isSome.mpr ⟨_, marked, Span.covers_iff.mpr ⟨starts, stops⟩⟩)
    obtain ⟨starts', stops'⟩ := Span.covers_iff.mp (List.find?_some first)
    obtain ⟨other, inside', holds', same⟩ :=
      exists_region_of_covers (List.mem_of_find?_eq_some first) starts' stops'
    have equal : region = other := by
      by_contra different
      have apart := Region.apart_of_mem_scan inside inside' different
      rw [Region.holds_iff] at holds'
      omega
    rw [first, Option.map_some, Option.map_some, ← same, equal]
    rfl

end Highlight

end KotlinHighlight
