import Mathlib.Data.List.Nodup
import KotlinHighlight.Proofs.Highlight.Outside

/-! # What is inside of comments and strings

By the scan there are three answers to what a position is inside of: the region that halving finds, the
two tests for comments and strings, and the spans that hold the position. They agree at every position
(`containment_agrees`), as no two regions hold the same one and each has one span, of the category
of its kind.
-/

namespace KotlinHighlight

namespace RegionKind

theorem category_eq_comment_iff {kind : RegionKind} :
    kind.category = .comment ↔ kind.isComment = true := by
  cases kind <;> decide

theorem category_eq_string_iff {kind : RegionKind} :
    kind.category = .string ↔ kind.isComment = false := by
  cases kind <;> decide

end RegionKind

theorem Region.nodup_scan (text : Text) : (scan text).Nodup := by
  refine (pairwise_scan text).imp_of_mem ?_
  rintro region _ member - ordered rfl
  have bounds := mem_scan_bounds member
  omega

namespace RegionIndex

open Region (scan)

/-- The region that halving finds is the only one that holds the position. -/
theorem filter_holds_scan (text : Text) (position : Int) :
    (scan text).filter (·.holds position) = ((ofText text).regionAt? position).toList := by
  have holds_iff : ∀ region, region ∈ (scan text).filter (·.holds position) ↔
      (ofText text).regionAt? position = some region :=
    fun _ => List.mem_filter.trans regionAt?_eq_some_iff.symm
  cases found : (ofText text).regionAt? position with
  | none =>
    rw [Option.toList_none, List.eq_nil_iff_forall_not_mem]
    intro region member
    exact absurd (found.symm.trans ((holds_iff region).mp member)) (Option.some_ne_none region).symm
  | some only =>
    rw [Option.toList_some, ← List.perm_singleton]
    refine (List.perm_ext_iff_of_nodup ((Region.nodup_scan text).filter _)
      (List.nodup_singleton only)).mpr fun region => ?_
    rw [holds_iff, found, Option.some.injEq, List.mem_singleton, eq_comm]

/-- A property of the region around a position is a property of some region that holds it. -/
theorem any_regionAt?_iff {text : Text} {position : Int} {property : Region → Bool} :
    ((ofText text).regionAt? position).any property = true ↔
      ∃ region ∈ scan text, region.holds position = true ∧ property region = true := by
  rw [Option.any_eq_true]
  refine exists_congr fun region => ?_
  rw [regionAt?_eq_some_iff, and_assoc]

end RegionIndex

namespace Highlight

/-- The spans of a category of regions are those of the regions of that category. -/
theorem mem_scan_and_category_iff (palette : Palette) {text : Text} {span : Span}
    {category : Category} (apart : category ∉ codePasses.map (·.2)) :
    span ∈ scan palette text ∧ span.category = category ↔
      ∃ region ∈ Region.scan text, region.kind.category = category ∧
        region.span palette category = span := by
  rw [scan_eq_assembled, assembled, List.mem_append]
  constructor
  · rintro ⟨inRegions | inCode, same⟩
    · obtain ⟨region, member, rfl⟩ := mem_regionSpans_iff.mp inRegions
      obtain rfl : region.kind.category = category := same
      exact ⟨region, member, rfl, rfl⟩
    · obtain ⟨pass, known, made⟩ := List.mem_flatMap.mp inCode
      obtain ⟨stretch, -, rfl⟩ := List.mem_map.mp made
      exact absurd (List.mem_map.mpr ⟨pass, known, same⟩) apart
  · rintro ⟨region, member, rfl, rfl⟩
    exact ⟨.inl (mem_regionSpans_iff.mpr ⟨region, member, rfl⟩), rfl⟩

/-- A position is in a span of a category of regions if it is in a region of that category. -/
theorem exists_span_iff (palette : Palette) {text : Text} {position : Int} {category : Category}
    (apart : category ∉ codePasses.map (·.2)) :
    (∃ span ∈ spans .scan palette text,
      span.category = category ∧ span.start ≤ position ∧ position < span.stop) ↔
      ∃ region ∈ Region.scan text, region.holds position = true ∧ region.kind.category = category := by
  constructor
  · rintro ⟨span, member, same, starts, stops⟩
    obtain ⟨region, inText, kind, rfl⟩ := (mem_scan_and_category_iff palette apart).mp ⟨member, same⟩
    exact ⟨region, inText, Region.holds_iff.mpr ⟨starts, stops⟩, kind⟩
  · rintro ⟨region, inText, holds, kind⟩
    obtain ⟨member, same⟩ := (mem_scan_and_category_iff palette apart).mpr
      ⟨region, inText, kind, rfl⟩
    exact ⟨_, member, same, Region.holds_iff.mp holds⟩

/-- Outside of its text no region holds a position, so that a test that looks there finds nothing. -/
theorem inside_iff {text : Text} {position : Int} {property : Region → Bool} :
    (if text = [] ∨ position < 0 ∨ text.length < position then false
      else ((RegionIndex.ofText text).regionAt? position).any property) = true ↔
      ∃ region ∈ Region.scan text, region.holds position = true ∧ property region = true := by
  split
  · rename_i outside
    refine ⟨fun inside => absurd inside Bool.false_ne_true, ?_⟩
    rintro ⟨region, member, holds, -⟩
    have bounds := Region.mem_scan_bounds member
    rw [Region.holds_iff] at holds
    rcases outside with rfl | before | after
    · exact absurd member List.not_mem_nil
    · omega
    · omega
  · exact RegionIndex.any_regionAt?_iff

theorem isInsideComment_iff {text : Text} {position : Int} :
    isInsideComment .scan text position = true ↔
      ∃ region ∈ Region.scan text, region.holds position = true ∧ region.kind.category = .comment := by
  simp only [RegionKind.category_eq_comment_iff]
  exact inside_iff

theorem isInsideString_iff {text : Text} {position : Int} :
    isInsideString .scan text position = true ↔
      ∃ region ∈ Region.scan text, region.holds position = true ∧ region.kind.category = .string := by
  simp only [RegionKind.category_eq_string_iff, ← Bool.not_eq_true']
  exact inside_iff

/-- At every position halving finds the only region that holds it, or none if there is none. The position
is inside of a comment just if a comment span holds it, inside of a string just if a string span does,
and never inside of both. -/
theorem containment_agrees (palette : Palette) (text : Text) (position : Int) :
    (Region.scan text).filter (·.holds position) =
        ((RegionIndex.ofText text).regionAt? position).toList ∧
      (isInsideComment .scan text position = true ↔ ∃ span ∈ spans .scan palette text,
        span.category = .comment ∧ span.start ≤ position ∧ position < span.stop) ∧
      (isInsideString .scan text position = true ↔ ∃ span ∈ spans .scan palette text,
        span.category = .string ∧ span.start ≤ position ∧ position < span.stop) ∧
      ¬(isInsideComment .scan text position = true ∧ isInsideString .scan text position = true) := by
  have comments : Category.comment ∉ codePasses.map (·.2) := category_not_mem_codePasses .lineComment
  have strings : Category.string ∉ codePasses.map (·.2) := category_not_mem_codePasses .string
  refine ⟨RegionIndex.filter_holds_scan text position,
    isInsideComment_iff.trans (exists_span_iff palette comments).symm,
    isInsideString_iff.trans (exists_span_iff palette strings).symm, ?_⟩
  rw [isInsideComment_iff, isInsideString_iff]
  rintro ⟨⟨first, one, holds, comment⟩, ⟨second, other, holds', string⟩⟩
  have found := RegionIndex.regionAt?_eq_some_iff.mpr ⟨one, holds⟩
  have found' := RegionIndex.regionAt?_eq_some_iff.mpr ⟨other, holds'⟩
  obtain rfl := Option.some.inj (found.symm.trans found')
  exact absurd (comment.symm.trans string) nofun

end Highlight

end KotlinHighlight
