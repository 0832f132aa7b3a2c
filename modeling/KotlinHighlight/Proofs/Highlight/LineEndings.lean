import KotlinHighlight.Proofs.Highlight.Outside
import KotlinHighlight.Proofs.Region.LineEndings

/-! # Line endings and spans

The scan does not depend on how lines end: a carriage return before each line feed moves the regions
and the spans of a text and changes nothing else (`regions_and_spans_crlf`). No number and no word has
a line feed or a carriage return, so that both part the text in which they are searched.
-/

namespace KotlinHighlight

def Stretch.relocate (place : Nat → Nat) (stretch : Stretch) : Stretch :=
  ⟨place stretch.start, place stretch.stop⟩

def Span.relocate (place : Nat → Nat) (span : Span) : Span :=
  { span with start := place span.start.toNat, stop := place span.stop.toNat }

namespace Text

section FirstLine

variable {line : Text} (unbroken : '\n' ∉ line) (rest : Text)
include unbroken

/-- Up to the first line feed each position stays. -/
theorem crlfPosition_of_le {position : Nat} (within : position ≤ line.length) :
    crlfPosition (line ++ rest) position = position := by
  have noFeed : '\n' ∉ line.take position := fun member => unbroken (List.mem_of_mem_take member)
  rw [crlfPosition, List.take_append_of_le_length within, List.count_eq_zero_of_not_mem noFeed,
    Nat.add_zero]

/-- After the first line feed the rest of the text moves its own positions. -/
theorem crlfPosition_after_feed (position : Nat) :
    crlfPosition (line ++ '\n' :: rest) (position + (line.length + 1)) =
      crlfPosition rest position + 1 + (line.length + 1) := by
  have parted := crlfPosition_append line ('\n' :: rest) (position + 1)
  rw [crlf_of_not_mem unbroken, crlfPosition_feed] at parted
  rw [Nat.add_comm line.length 1, ← Nat.add_assoc, Nat.add_comm _ line.length, parted]
  omega

end FirstLine

end Text

namespace Pattern

open Text (crlf crlfPosition)

variable {accepts : Char → Bool} {pattern : Pattern}

theorem stretches_relocate_of_not_mem (pattern : Pattern) {line : Text} (unbroken : '\n' ∉ line)
    (rest : Text) : (pattern.stretches line).map (·.relocate (crlfPosition (line ++ rest))) =
      pattern.stretches line := by
  refine (List.map_congr_left fun stretch member => ?_).trans (List.map_id _)
  obtain ⟨forward, within⟩ := mem_stretches_bounds member
  rw [Stretch.relocate, Text.crlfPosition_of_le unbroken rest (by omega),
    Text.crlfPosition_of_le unbroken rest within]
  rfl

/-- Two line breaks part a line from the rest of a text. -/
theorem stretches_append_crlf (words : ∀ c, Unicode.isWord c = true → accepts c = true)
    (unbroken : ∀ c, Text.isLineBreak c = true → accepts c = false)
    (within : pattern.Within accepts) (line rest : Text) :
    pattern.stretches (line ++ '\r' :: '\n' :: rest) =
      pattern.stretches line ++
        ((pattern.stretches rest).map (·.moved 1)).map (·.moved (line.length + 1)) := by
  have nothing : pattern.stretches [] = [] := rfl
  have second := stretches_append_separator words within (unbroken '\n' rfl) [] rest
  rw [List.nil_append, nothing, List.nil_append, List.length_nil] at second
  rw [stretches_append_separator words within (unbroken '\r' rfl), second]

/-- A carriage return before each line feed moves the matches of a pattern that takes neither. -/
theorem stretches_crlf (words : ∀ c, Unicode.isWord c = true → accepts c = true)
    (unbroken : ∀ c, Text.isLineBreak c = true → accepts c = false)
    (within : pattern.Within accepts) (text : Text) :
    pattern.stretches (crlf text) =
      (pattern.stretches text).map (·.relocate (crlfPosition text)) := by
  induction size : text.length using Nat.strongRecOn generalizing text with
  | ind count ih =>
    by_cases feed : '\n' ∈ text
    · obtain ⟨line, rest, rfl, noFeed⟩ := List.eq_append_cons_of_mem feed
      have shorter : rest.length < count := by
        rw [← size, List.length_append, List.length_cons]
        omega
      rw [Text.crlf_append, Text.crlf_of_not_mem noFeed, Text.crlf_feed,
        stretches_append_crlf words unbroken within, ih rest.length shorter rest rfl,
        stretches_append_separator words within (unbroken '\n' rfl), List.map_append,
        pattern.stretches_relocate_of_not_mem noFeed, List.map_map, List.map_map, List.map_map]
      congr 2
      funext stretch
      simp only [Function.comp_apply, Stretch.moved, Stretch.relocate,
        Text.crlfPosition_after_feed noFeed]
    · have alone := pattern.stretches_relocate_of_not_mem feed []
      rw [List.append_nil] at alone
      rw [Text.crlf_of_not_mem feed, alone]

end Pattern

namespace Highlight

open Text (crlf crlfPosition)

theorem outside_crlf {pass : Pattern × Category} (known : pass ∈ codePasses) (text : Text) :
    outside pass.1 (crlf text) = (outside pass.1 text).map (·.relocate (crlfPosition text)) := by
  obtain ⟨accepts, words, unbroken, -, within⟩ := exists_within_of_mem_codePasses known
  rw [outside, outside, Pattern.stretches_crlf words unbroken within, Region.scan_crlf,
    List.filter_map]
  congr 2
  funext stretch
  simp only [Function.comp_apply, List.any_map]
  congr 2
  funext region
  exact region.holds_relocate (Text.crlfPosition_strictMono text) stretch.start

theorem regionSpans_relocate (palette : Palette) (place : Nat → Nat) (regions : List Region) :
    regionSpans palette (regions.map (·.relocate place)) =
      (regionSpans palette regions).map (·.relocate place) := by
  rw [regionSpans, regionSpans, List.map_flatMap]
  apply List.flatMap_congr
  intro pass _
  dsimp only
  rw [List.filter_map, List.map_map, List.map_map]
  rfl

/-- A carriage return before each line feed of a text moves its regions and its spans by the line feeds
before them, and changes nothing else. -/
theorem regions_and_spans_crlf (palette : Palette) (text : Text) :
    Region.scan (crlf text) = (Region.scan text).map (·.relocate (crlfPosition text)) ∧
      spans .scan palette (crlf text) =
        (spans .scan palette text).map (·.relocate (crlfPosition text)) := by
  refine ⟨Region.scan_crlf text, ?_⟩
  rw [spans, spans, scan_eq_assembled, scan_eq_assembled, assembled, assembled, List.map_append,
    Region.scan_crlf, regionSpans_relocate, List.map_flatMap]
  congr 1
  apply List.flatMap_congr
  intro pass known
  rw [outside_crlf known, List.map_map, List.map_map]
  rfl

end Highlight

end KotlinHighlight
