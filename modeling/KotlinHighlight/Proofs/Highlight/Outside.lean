import KotlinHighlight.Proofs.Highlight.Window
import KotlinHighlight.Proofs.Region.Restart

/-! # Inside and outside of regions

What is written inside of a comment or a literal changes nothing outside of it
(`spans_outside_region`). The scan goes on after the region as it would in a text of its own, and
the search for numbers and words does too: a region starts with a character that no number and no word
has, and it ends with one or before one.
-/

namespace KotlinHighlight

def Span.moved (distance : Int) (span : Span) : Span :=
  { span with start := span.start + distance, stop := span.stop + distance }

/-- A span, further on if it starts at a place or after it. -/
def Span.movedFrom (place distance : Int) (span : Span) : Span :=
  if place ≤ span.start then span.moved distance else span

/-- What starts before a place stays, and what was moved to the place is moved elsewhere. -/
theorem Span.map_movedFrom {α : Type} {spanOf : α → Span} {further : Nat → α → α}
    (same : ∀ distance one, spanOf (further distance one) = (spanOf one).moved distance)
    {before after : List α} {place : Nat} (early : ∀ one ∈ before, (spanOf one).start < place)
    (late : ∀ one ∈ after, 0 ≤ (spanOf one).start) (distance : Nat) :
    ((before ++ after.map (further place)).map spanOf).map (·.movedFrom place (distance - place)) =
      (before ++ after.map (further distance)).map spanOf := by
  rw [List.map_append, List.map_append, List.map_append]
  congr 1
  · rw [List.map_map]
    apply List.map_congr_left
    intro one member
    exact if_neg (Int.not_le.mpr (early one member))
  · rw [List.map_map, List.map_map, List.map_map]
    apply List.map_congr_left
    intro one member
    have positive := late one member
    simp only [Function.comp_apply, same, Span.moved, Span.movedFrom]
    rw [if_pos (by omega), Span.mk.injEq]
    exact ⟨by omega, by omega, rfl, rfl⟩

namespace Region

theorem holds_moved (region : Region) (distance place : Nat) :
    (region.moved distance).holds (place + distance : Nat) = region.holds place := by
  rw [Bool.eq_iff_iff, holds_iff, holds_iff, moved]
  simp only
  omega

theorem any_holds_eq_false {regions : List Region} {place : Nat}
    (apart : ∀ region ∈ regions, region.stop ≤ place ∨ place < region.start) :
    regions.any (·.holds place) = false := by
  rw [List.any_eq_false]
  intro region member holds
  have outside := apart region member
  rw [holds_iff] at holds
  omega

end Region

namespace Highlight

open Region (delimiters)

/-- The matches of a pattern that start outside of all regions. -/
def outside (pattern : Pattern) (text : Text) : List Stretch :=
  (pattern.stretches text).filter fun stretch =>
    !(Region.scan text).any (·.holds stretch.start)

/-- The spans of some regions and of what each pattern matches outside of them. -/
def assembled (palette : Palette) (regions : List Region) (found : Pattern → List Stretch) :
    List Span :=
  regionSpans palette regions ++ codePasses.flatMap fun pass =>
    (found pass.1).map (·.span palette pass.2)

theorem scan_eq_assembled (palette : Palette) (text : Text) :
    scan palette text = assembled palette (Region.scan text) (outside · text) :=
  scan_eq_spansOf palette text

theorem nodup_codePasses : (codePasses.map (·.2)).Nodup := by
  simp only [codePasses, Vocabulary.tables, List.map_cons, List.map_nil]
  decide

/-- No pass over the code is of a category of regions. -/
theorem category_not_mem_codePasses (kind : RegionKind) : kind.category ∉ codePasses.map (·.2) := by
  simp only [codePasses, Vocabulary.tables, List.map_cons, List.map_nil]
  cases kind <;> decide

/-- Of what several passes made, that of one category is what its only pass made. -/
theorem filter_category_flatMap {α β : Type} {categoryOf : α → Category}
    {categoryOfMade : β → Category} {passes : List α} (distinct : (passes.map categoryOf).Nodup) {made : α → List β}
    (own : ∀ pass ∈ passes, ∀ one ∈ made pass, categoryOfMade one = categoryOf pass) {pass : α}
    (known : pass ∈ passes) :
    (passes.flatMap made).filter (categoryOfMade · = categoryOf pass) = made pass := by
  induction passes with
  | nil => exact absurd known List.not_mem_nil
  | cons first others ih =>
    rw [List.map_cons, List.nodup_cons] at distinct
    rw [List.forall_mem_cons] at own
    rw [List.flatMap_cons, List.filter_append]
    rcases List.mem_cons.mp known with rfl | later
    · rw [List.filter_eq_self.mpr, List.filter_eq_nil_iff.mpr, List.append_nil]
      · intro one member
        obtain ⟨other, inOthers, madeBy⟩ := List.mem_flatMap.mp member
        rw [own.2 other inOthers one madeBy, decide_eq_true_eq]
        intro same
        exact distinct.1 (List.mem_map.mpr ⟨other, inOthers, same⟩)
      · intro one member
        exact decide_eq_true (own.1 one member)
    · rw [List.filter_eq_nil_iff.mpr, List.nil_append, ih distinct.2 own.2 later]
      intro one member
      rw [own.1 one member, decide_eq_true_eq]
      intro same
      exact distinct.1 (List.mem_map.mpr ⟨pass, later, same.symm⟩)

/-- The spans of a category of code are the matches of its pattern that start outside of all
regions. -/
theorem filter_category_scan (palette : Palette) (text : Text) {pass : Pattern × Category}
    (known : pass ∈ codePasses) :
    (scan palette text).filter (·.category = pass.2) =
      (outside pass.1 text).map (·.span palette pass.2) := by
  have noRegion : ∀ span ∈ regionSpans palette (Region.scan text), span.category ≠ pass.2 := by
    intro span member same
    obtain ⟨region, -, rfl⟩ := mem_regionSpans_iff.mp member
    exact category_not_mem_codePasses region.kind (List.mem_map.mpr ⟨pass, known, same.symm⟩)
  rw [scan_eq_assembled, assembled, List.filter_append, List.filter_eq_nil_iff.mpr,
    List.nil_append]
  · apply filter_category_flatMap nodup_codePasses ?_ known
    intro other _ span member
    obtain ⟨stretch, -, rfl⟩ := List.mem_map.mp member
    rfl
  · intro span member
    rw [decide_eq_true_eq]
    exact noRegion span member

theorem OpensNone.of_mem_delimiters {accepts : Char → Bool} (opensNone : OpensNone accepts) {c : Char}
    (delimiter : c ∈ delimiters) : accepts c = false := by
  obtain ⟨slash, quote, apostrophe⟩ := opensNone
  simp only [delimiters, List.mem_cons, List.not_mem_nil, or_false] at delimiter
  rcases delimiter with rfl | rfl | rfl
  · exact slash
  · exact quote
  · exact apostrophe

section Around

variable {before middle after : Text} {kind : RegionKind}
  (member : ⟨before.length, before.length + middle.length, kind⟩ ∈
    Region.scan (before ++ middle ++ after))
include member

/-- The matches in a text with a region are those in the three parts of the text. -/
theorem stretches_around {pass : Pattern × Category} (known : pass ∈ codePasses) :
    pass.1.stretches (before ++ middle ++ after) =
      pass.1.stretches before ++ (pass.1.stretches middle).map (·.moved before.length) ++
        (pass.1.stretches after).map (·.moved (before.length + middle.length)) := by
  obtain ⟨accepts, words, unbroken, opensNone, within⟩ := exists_within_of_mem_codePasses known
  obtain ⟨opens, -⟩ := Region.scan_around member
  have start : ∃ c, accepts c = false ∧ ([c] <:+ before ∨ [c] <+: middle) := by
    obtain ⟨positive, -⟩ := Region.opening?_bounds opens
    obtain ⟨c, rest, split, opener⟩ := Region.head_of_opening?_eq_some opens
    have starts : [c] <+: middle ++ after := split ▸ List.prefix_append [c] rest
    refine ⟨c, opensNone.of_mem_delimiters (by rcases opener with rfl | rfl | rfl <;> decide), .inr ?_⟩
    exact List.prefix_of_prefix_length_le starts (List.prefix_append middle after) positive
  have stop : after = [] ∨ ∃ c, accepts c = false ∧ ([c] <:+ before ++ middle ∨ [c] <+: after) := by
    rcases Region.exists_ending opens with ended | ⟨c, delimiter, closes⟩ | ⟨c, breaks, follows⟩
    · exact .inl ended
    · exact .inr ⟨c, opensNone.of_mem_delimiters delimiter,
        .inl (closes.trans (List.suffix_append before middle))⟩
    · exact .inr ⟨c, unbroken c breaks, .inr follows⟩
  rw [Pattern.stretches_append_of_parted words within stop,
    Pattern.stretches_append_of_parted words within (.inr start), List.length_append]

/-- Before a region a position is inside of another one if it is so in that part alone. -/
theorem any_holds_before {place : Nat} (early : place < before.length) :
    (Region.scan (before ++ middle ++ after)).any (·.holds place) =
      (Region.scan before).any (·.holds place) := by
  obtain ⟨-, regions⟩ := Region.scan_around member
  rw [regions, List.any_append]
  refine (congrArg (_ || ·) (Region.any_holds_eq_false ?_)).trans (Bool.or_false _)
  intro region inRest
  rw [List.mem_cons] at inRest
  rcases inRest with rfl | later
  · exact .inr early
  · obtain ⟨original, -, rfl⟩ := List.mem_map.mp later
    right
    rw [Region.moved]
    dsimp only
    omega

theorem any_holds_inside {place : Nat} (starts : before.length ≤ place)
    (stops : place < before.length + middle.length) :
    (Region.scan (before ++ middle ++ after)).any (·.holds place) = true := by
  rw [List.any_eq_true]
  refine ⟨_, member, ?_⟩
  rw [Region.holds_iff]
  dsimp only
  omega

/-- After a region a position is inside of another one if it is so in that part alone. -/
theorem any_holds_after (place : Nat) :
    (Region.scan (before ++ middle ++ after)).any
        (·.holds (place + (before.length + middle.length) : Nat)) =
      (Region.scan after).any (·.holds place) := by
  obtain ⟨-, regions⟩ := Region.scan_around member
  have moved : ((Region.scan after).map (Region.moved (before.length + middle.length))).any
      (fun region => region.holds (place + (before.length + middle.length) : Nat)) =
        (Region.scan after).any (·.holds place) := by
    rw [List.any_map]
    congr 1
    funext region
    exact region.holds_moved _ place
  rw [regions, ← List.singleton_append, ← List.append_assoc, List.any_append, moved]
  refine (congrArg (· || _) (Region.any_holds_eq_false ?_)).trans (Bool.false_or _)
  intro region inFirst
  rw [List.mem_append, List.mem_singleton] at inFirst
  rcases inFirst with early | rfl
  · have bounds := Region.mem_scan_bounds early
    omega
  · left
    dsimp only
    omega

/-- The matches outside of all regions are those before a region and those after it. -/
theorem outside_around {pass : Pattern × Category} (known : pass ∈ codePasses) :
    outside pass.1 (before ++ middle ++ after) =
      outside pass.1 before ++
        (outside pass.1 after).map (·.moved (before.length + middle.length)) := by
  rw [outside, stretches_around member known, List.filter_append, List.filter_append]
  have first : (pass.1.stretches before).filter (fun stretch =>
      !(Region.scan (before ++ middle ++ after)).any (·.holds stretch.start)) =
        outside pass.1 before := by
    apply List.filter_congr
    intro stretch found
    have bounds := Pattern.mem_stretches_bounds found
    rw [any_holds_before member (Nat.lt_of_lt_of_le bounds.1 bounds.2)]
  have second : ((pass.1.stretches middle).map (·.moved before.length)).filter (fun stretch =>
      !(Region.scan (before ++ middle ++ after)).any (·.holds stretch.start)) = [] := by
    rw [List.filter_eq_nil_iff]
    intro stretch found
    obtain ⟨original, inMiddle, rfl⟩ := List.mem_map.mp found
    have bounds := Pattern.mem_stretches_bounds inMiddle
    rw [any_holds_inside member, Bool.not_true]
    · exact Bool.false_ne_true
    · exact Nat.le_add_left _ _
    · rw [Stretch.moved]
      dsimp only
      omega
  have third : ((pass.1.stretches after).map (·.moved (before.length + middle.length))).filter
      (fun stretch => !(Region.scan (before ++ middle ++ after)).any (·.holds stretch.start)) =
        (outside pass.1 after).map (·.moved (before.length + middle.length)) := by
    rw [List.filter_map, outside]
    congr 2
    funext stretch
    exact congrArg (!·) (any_holds_after member stretch.start)
  rw [first, second, third, List.append_nil]

end Around

/-- The spans of two texts of which the second one stands further on. -/
def spansApart (palette : Palette) (before after : Text) (distance : Nat) : List Span :=
  assembled palette (Region.scan before ++ (Region.scan after).map (Region.moved distance))
    fun pattern => outside pattern before ++ (outside pattern after).map (·.moved distance)

/-- No span comes twice in a scan. -/
theorem nodup_scan (palette : Palette) (text : Text) : (scan palette text).Nodup := by
  refine (pairwise_scan palette text).imp_of_mem ?_
  rintro first _ one - apart rfl
  have bounds : first.Within text := within_of_mem_spans (show first ∈ spans .scan palette text from one)
  rw [Span.Within] at bounds
  rw [Span.Apart] at apart
  omega

/-- The spans of a scan without the one of a region. -/
def spansBeside (palette : Palette) (text : Text) (region : Region) : List Span :=
  (spans .scan palette text).erase (region.span palette region.kind.category)

/-- Without the span of a region the others are those of the other regions. -/
theorem regionSpans_filter (palette : Palette) {regions : List Region} {region : Region}
    (elsewhere : ∀ other ∈ regions, other ≠ region → other.start ≠ region.start) :
    (regionSpans palette regions).filter (· != region.span palette region.kind.category) =
      regionSpans palette (regions.filter (· != region)) := by
  rw [regionSpans, regionSpans, List.filter_flatMap]
  apply List.flatMap_congr
  intro pass known
  dsimp only
  rw [List.filter_map, List.filter_filter, List.filter_filter]
  congr 1
  apply List.filter_congr
  intro other member
  by_cases same : other = region
  · subst same
    by_cases marked : other.kind ∈ pass.1
    · simp [category_of_mem_regionPasses pass known _ marked]
    · simp [marked]
  · have different : other.span palette pass.2 ≠ region.span palette region.kind.category :=
      fun equal => elsewhere other member same (Int.ofNat.inj (congrArg Span.start equal))
    simp only [Function.comp_apply, bne_iff_ne.mpr same, bne_iff_ne.mpr different, Bool.true_and,
      Bool.and_true]

/-- Without the span of a region, a scan shows the text before the region and the text after it. -/
theorem spansBeside_eq_spansApart (palette : Palette) {before middle after : Text}
    {kind : RegionKind} (member : ⟨before.length, before.length + middle.length, kind⟩ ∈
      Region.scan (before ++ middle ++ after)) :
    spansBeside palette (before ++ middle ++ after)
        ⟨before.length, before.length + middle.length, kind⟩ =
      spansApart palette before after (before.length + middle.length) := by
  obtain ⟨opens, regions⟩ := Region.scan_around member
  obtain ⟨positive, -⟩ := Region.opening?_bounds opens
  rw [spansBeside, spans, (nodup_scan palette _).erase_eq_filter, scan_eq_assembled, assembled,
    spansApart, assembled, List.filter_append]
  congr 1
  · rw [regionSpans_filter]
    · rw [regions, List.filter_append, List.filter_cons_of_neg (by simp),
        List.filter_eq_self.mpr, List.filter_eq_self.mpr]
      · intro region later
        obtain ⟨original, -, rfl⟩ := List.mem_map.mp later
        simp only [Region.moved, bne_iff_ne, ne_eq, Region.mk.injEq, not_and]
        omega
      · intro region early
        have bounds := Region.mem_scan_bounds early
        rw [bne_iff_ne]
        rintro rfl
        simp only at bounds
        omega
    · intro other inText different same
      have parted := Region.apart_of_mem_scan inText member different
      have bounds := Region.mem_scan_bounds inText
      dsimp only at parted same
      omega
  · rw [List.filter_eq_self.mpr]
    · apply List.flatMap_congr
      intro pass known
      rw [outside_around member known]
    · intro span inCode
      obtain ⟨pass, known, inPass⟩ := List.mem_flatMap.mp inCode
      obtain ⟨stretch, kept, rfl⟩ := List.mem_map.mp inPass
      rw [bne_iff_ne]
      intro same
      have start : stretch.start = before.length := Int.ofNat.inj (congrArg Span.start same)
      have inside := any_holds_inside member (Nat.le_of_eq start.symm) (by omega)
      rw [outside, List.mem_filter, inside] at kept
      exact Bool.false_ne_true kept.2

/-- What is shown of two texts depends on the distance of the second one as its place does. -/
theorem spansApart_moved (palette : Palette) {before : Text} (after : Text) {place : Nat}
    (room : before.length ≤ place) (distance : Nat) :
    (spansApart palette before after place).map (·.movedFrom place (distance - place)) =
      spansApart palette before after distance := by
  rw [spansApart, spansApart, assembled, assembled, List.map_append, regionSpans, regionSpans,
    List.map_flatMap, List.map_flatMap]
  congr 1
  · apply List.flatMap_congr
    intro pass _
    dsimp only
    rw [List.filter_append, List.filter_append, List.filter_map, List.filter_map]
    apply Span.map_movedFrom fun _ _ => rfl
    · intro region member
      have bounds := Region.mem_scan_bounds (List.mem_of_mem_filter member)
      simp only [Region.span]
      omega
    · exact fun region _ => Int.natCast_nonneg _
  · apply List.flatMap_congr
    intro pass _
    apply Span.map_movedFrom fun _ _ => rfl
    · intro stretch member
      have bounds := Pattern.mem_stretches_bounds (List.mem_of_mem_filter member)
      simp only [Stretch.span]
      omega
    · exact fun stretch _ => Int.natCast_nonneg _

/-- Take two texts that differ in what a region is made of. Apart from the span of that region the
two have the same spans in the same order, but for the distance of those behind the region. -/
theorem spans_outside_region (palette : Palette) {before first second after : Text}
    {kind other : RegionKind}
    (one : ⟨before.length, before.length + first.length, kind⟩ ∈
      Region.scan (before ++ first ++ after))
    (two : ⟨before.length, before.length + second.length, other⟩ ∈
      Region.scan (before ++ second ++ after)) :
    spansBeside palette (before ++ second ++ after)
        ⟨before.length, before.length + second.length, other⟩ =
      (spansBeside palette (before ++ first ++ after)
        ⟨before.length, before.length + first.length, kind⟩).map
          (·.movedFrom (before.length + first.length) (second.length - first.length)) := by
  have moved := spansApart_moved palette after
    (Nat.le_add_right before.length first.length) (before.length + second.length)
  have distance : ((before.length + second.length : Nat) : Int) -
      (before.length + first.length : Nat) = second.length - first.length := by omega
  rw [distance, Int.natCast_add] at moved
  rw [spansBeside_eq_spansApart palette one, spansBeside_eq_spansApart palette two, moved]

/-- A comment with a known word in it takes the place of a character literal. -/
theorem spans_outside_region_of_comment :
    let before : Text := ['1', ' ']
    let first : Text := ['\'', 'a', '\'']
    let second : Text := ['/', '*', 'i', 'f', '*', '/']
    let after : Text := [' ', '"', '2', '"']
    ⟨2, 5, .character⟩ ∈ Region.scan (before ++ first ++ after) ∧
    ⟨2, 8, .blockComment⟩ ∈ Region.scan (before ++ second ++ after) ∧
    spansBeside .default (before ++ second ++ after) ⟨2, 8, .blockComment⟩ =
      (spansBeside .default (before ++ first ++ after) ⟨2, 5, .character⟩).map
        (·.movedFrom 5 3) := by
  intro before first second after
  have one : ⟨before.length, before.length + first.length, .character⟩ ∈
      Region.scan (before ++ first ++ after) := by decide
  have two : ⟨before.length, before.length + second.length, .blockComment⟩ ∈
      Region.scan (before ++ second ++ after) := by decide
  exact ⟨one, two, spans_outside_region .default one two⟩

end Highlight

end KotlinHighlight
