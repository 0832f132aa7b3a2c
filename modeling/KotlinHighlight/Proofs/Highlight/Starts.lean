import KotlinHighlight.Proofs.Highlight.Apart

/-! # How spans start

A span starts with what opens a comment or a literal, or with a character of a word or a number. In
neither mode is that a line feed (`head_of_mem_spans`).
-/

namespace KotlinHighlight

namespace Highlight

open Pattern

theorem bne_of_refuses {accepts : Char → Bool} {d : Char} (refuses : accepts d = false) (c : Char)
    (taken : accepts c = true) : (c != d) = true := by
  rw [bne_iff_ne]
  rintro rfl
  exact Bool.false_ne_true (refuses.symm.trans taken)

/-- A heuristic pass marks comments, or it keeps out of them and starts with a quote or takes nothing
that opens a region and no line feed. -/
theorem cases_of_mem_heuristicPasses {pass : HeuristicPass} (member : pass ∈ heuristicPasses) :
    pass = ⟨Heuristic.lineComment, .comment, false, false⟩ ∨
      pass = ⟨Heuristic.blockComment, .comment, false, false⟩ ∨
      pass.category ≠ .comment ∧ pass.outsideComments = true ∧
        (pass.pattern.Opens (· == '"') ∨ ∃ accepts : Char → Bool, OpensNone accepts ∧
          accepts '\n' = false ∧ pass.pattern.Within accepts) := by
  have quote : (char '"').Opens (· == '"') := opens_char (by decide)
  have categories : ∀ table ∈ Vocabulary.tables, table.1 ≠ .comment := by decide
  rw [heuristicPasses, List.mem_append] at member
  rcases member with fixed | inTables
  · simp only [List.mem_cons, List.not_mem_nil, or_false] at fixed
    rcases fixed with rfl | rfl | rfl | rfl | rfl
    · exact .inl rfl
    · exact .inr (.inl rfl)
    · exact .inr (.inr ⟨by decide, rfl, .inl (quote.both _)⟩)
    · exact .inr (.inr ⟨by decide, rfl, .inl ((quote.both _).both _)⟩)
    · exact .inr (.inr ⟨by decide, rfl, .inr ⟨Number.isPart, ⟨by decide, by decide, by decide⟩,
        by decide, Number.within_isPart⟩⟩)
  · obtain ⟨table, known, inTable⟩ := List.mem_flatMap.mp inTables
    obtain ⟨word, isKnown, rfl⟩ := List.mem_map.mp inTable
    have chosen : [word] ⊆ table.2 := List.cons_subset.mpr ⟨isKnown, List.nil_subset _⟩
    exact .inr (.inr ⟨categories table known, rfl, .inr ⟨Unicode.isWord,
      ⟨by decide, by decide, by decide⟩, by decide,
      Vocabulary.within_pattern_of_subset known chosen⟩⟩)

/-- What a heuristic pass finds does not start with a line feed. -/
theorem head_of_mem_heuristicPasses {pass : HeuristicPass} (known : pass ∈ heuristicPasses)
    {text : Text} {stretch : Stretch} (found : stretch ∈ pass.pattern.stretches text) :
    text[stretch.start]?.any (· != '\n') = true := by
  have slash : (char '/').Opens (· != '\n') := opens_char (by decide)
  rcases cases_of_mem_heuristicPasses known with
    rfl | rfl | ⟨-, -, quote | ⟨accepts, -, refuses, within⟩⟩
  · exact head_of_opens found ((slash.both _).both _)
  · exact head_of_opens found ((slash.both _).both _)
  · exact head_of_opens found (quote.mono (fun c same => by rw [beq_iff_eq.mp same]; rfl))
  · exact head_of_within found (within.mono (bne_of_refuses refuses))

/-- A heuristic pass that does not mark comments keeps out of them, and what it finds does not start
with a slash. -/
theorem guarded_of_mem_heuristicPasses {pass : HeuristicPass} (known : pass ∈ heuristicPasses)
    (other : pass.category ≠ .comment) : pass.outsideComments = true ∧
      ∀ {text : Text} {stretch : Stretch}, stretch ∈ pass.pattern.stretches text →
        text[stretch.start]?.any (· != '/') = true := by
  rcases cases_of_mem_heuristicPasses known with
    rfl | rfl | ⟨-, guarded, quote | ⟨accepts, outside, -, within⟩⟩
  · exact absurd rfl other
  · exact absurd rfl other
  · exact ⟨guarded, fun found =>
      head_of_opens found (quote.mono (fun c same => by rw [beq_iff_eq.mp same]; rfl))⟩
  · exact ⟨guarded, fun found => head_of_within found (within.mono (bne_of_refuses outside.1))⟩

theorem head_of_mem_scan {text : Text} {region : Region} (member : region ∈ Region.scan text) :
    text[region.start]?.any (· != '\n') = true := by
  obtain ⟨before, length, same, opens⟩ := Region.mem_scanFrom member
  obtain ⟨c, rest, ahead, opener⟩ := Region.head_of_opening?_eq_some opens
  have start : region.start = before := by
    rw [same, Nat.zero_add]
  rw [start, ← List.head?_drop, ahead, List.head?_cons, Option.any_some]
  rcases opener with rfl | rfl | rfl
  · rfl
  · rfl
  · rfl

theorem head_of_mem_spans {mode : Containment} {palette : Palette} {text : Text} {span : Span}
    (member : span ∈ spans mode palette text) :
    text[span.start.toNat]?.any (· != '\n') = true := by
  cases mode with
  | scan =>
    rcases List.mem_append.mp member with inRegions | inCode
    · obtain ⟨region, inScan, rfl⟩ := mem_regionSpans_iff.mp inRegions
      exact head_of_mem_scan inScan
    · obtain ⟨pass, known, inPass⟩ := List.mem_flatMap.mp inCode
      obtain ⟨stretch, kept, rfl⟩ := List.mem_map.mp inPass
      obtain ⟨accepts, -, refuses, -, within⟩ := exists_within_of_mem_codePasses known
      exact head_of_within (List.mem_of_mem_filter kept)
        (within.mono (bne_of_refuses (refuses '\n' rfl)))
  | heuristic =>
    obtain ⟨pass, known, inPass⟩ := List.mem_flatMap.mp member
    obtain ⟨stretch, kept, rfl⟩ := List.mem_map.mp inPass
    exact head_of_mem_heuristicPasses known (List.mem_of_mem_filter kept)

end Highlight

end KotlinHighlight
