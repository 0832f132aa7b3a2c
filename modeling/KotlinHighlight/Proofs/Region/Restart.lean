import Mathlib.Data.List.TakeWhile
import KotlinHighlight.Proofs.Region

/-! # Scanning anew

A scan can start anew at the places that are not strictly inside of a region, and at no others
(`scan_restarts_iff`). So what stands after a region is scanned as if it stood alone, whatever
the region is made of (`scan_around`). A region ends with its closer, before a line break, or with the
text (`exists_ending`).
-/

namespace KotlinHighlight

namespace Text

/-- The first line is whole in each part of a text that is no shorter. -/
theorem firstLine_of_append {before after : Text}
    (within : (firstLine (before ++ after)).length ≤ before.length) :
    (firstLine before).length = (firstLine (before ++ after)).length := by
  rw [firstLine, firstLine, List.takeWhile_append]
  rw [firstLine, List.takeWhile_append] at within
  split
  · rename_i whole
    rw [if_pos whole, List.length_append] at within
    rw [whole, List.length_append]
    omega
  · rfl

/-- The first closer is whole in each part of a text that is no shorter than up to its end. -/
theorem lengthThrough_of_append {closer before after : Text}
    (within : lengthThrough closer (before ++ after) ≤ before.length) :
    lengthThrough closer before = lengthThrough closer (before ++ after) := by
  induction before with
  | nil => exact (Nat.le_zero.mp within).symm
  | cons c rest ih =>
    rw [List.cons_append, lengthThrough] at within ⊢
    rw [lengthThrough]
    by_cases closes : closer.isPrefixOf (c :: (rest ++ after)) = true
    · rw [if_pos closes] at within ⊢
      have here : closer <+: c :: rest :=
        List.prefix_of_prefix_length_le (List.isPrefixOf_iff_prefix.mp closes)
          (List.prefix_append (c :: rest) after) within
      rw [if_pos (List.isPrefixOf_iff_prefix.mpr here)]
    · have open' : ¬closer.isPrefixOf (c :: rest) = true := by
        intro here
        have further := (List.isPrefixOf_iff_prefix.mp here).trans
          (List.prefix_append (c :: rest) after)
        exact closes (List.isPrefixOf_iff_prefix.mpr further)
      rw [if_neg closes, List.length_cons] at within
      rw [if_neg closes, if_neg open', ih (Nat.le_of_succ_le_succ within)]

/-- Up to its first closer, a text that goes on ends with the closer. -/
theorem suffix_of_lengthThrough {closer before after : Text} (nonempty : closer ≠ [])
    (length : lengthThrough closer (before ++ after) = before.length) :
    after = [] ∨ closer <:+ before := by
  induction before with
  | nil =>
    left
    cases after with
    | nil => rfl
    | cons c rest =>
      rw [List.nil_append, lengthThrough] at length
      have positive := List.length_pos_iff.mpr nonempty
      split at length
      · exact absurd length (Nat.ne_of_gt positive)
      · exact absurd length (Nat.succ_ne_zero _)
  | cons c rest ih =>
    rw [List.cons_append, lengthThrough] at length
    split at length
    · rename_i closes
      right
      have here : closer <+: c :: rest :=
        List.prefix_of_prefix_length_le (List.isPrefixOf_iff_prefix.mp closes)
          (List.prefix_append (c :: rest) after) (Nat.le_of_eq length)
      exact ⟨[], here.eq_of_length length⟩
    · exact (ih (Nat.succ.inj length)).imp id fun ends => ends.trans (List.suffix_cons c rest)

/-- Whether a text starts with a line break. -/
def StartsWithBreak (text : Text) : Prop :=
  ∃ c, isLineBreak c = true ∧ [c] <+: text

theorem ending_of_firstLine {before after : Text}
    (length : (firstLine (before ++ after)).length = before.length) :
    after = [] ∨ StartsWithBreak after := by
  have whole : firstLine (before ++ after) = before :=
    (List.prefix_of_prefix_length_le (List.takeWhile_prefix _) (List.prefix_append before after)
      (Nat.le_of_eq length)).eq_of_length length
  cases after with
  | nil => exact .inl rfl
  | cons c rest =>
    refine .inr ⟨c, ?_, List.prefix_append [c] rest⟩
    by_contra inside
    rw [firstLine, List.takeWhile_append] at whole
    split at whole
    · rw [List.takeWhile_cons_of_pos (by simp [inside])] at whole
      simp at whole
    · rename_i short
      exact short (congrArg List.length whole)

end Text

namespace Region

/-- A literal is whole in each part of a text that is no shorter. -/
theorem quotedLength_of_append {quote : Char} {before after : Text}
    (within : quotedLength quote (before ++ after) ≤ before.length) :
    quotedLength quote before = quotedLength quote (before ++ after) := by
  fun_induction quotedLength quote before with
  | case1 => exact (Nat.le_zero.mp within).symm
  -- What follows the last character tells whether it escapes something.
  | case2 | case3 | case4 => cases after <;> grind [quotedLength]
  | case5 | case6 | case7 | case8 => grind [quotedLength]

theorem break_of_quotedLength_eq_zero {quote : Char} {text : Text}
    (ended : quotedLength quote text = 0) : text = [] ∨ Text.StartsWithBreak text := by
  fun_cases quotedLength quote text with
  | case1 => exact .inl rfl
  | case3 c _ breaks => exact .inr ⟨c, breaks, List.prefix_append [c] []⟩
  | case7 c d rest _ _ breaks => exact .inr ⟨c, breaks, List.prefix_append [c] (d :: rest)⟩
  | case2 | case4 | case5 | case6 | case8 => grind [quotedLength]

/-- Up to its end, a literal whose text goes on ends with its quote or before a line break. -/
theorem ending_of_quotedLength {quote : Char} {before after : Text}
    (length : quotedLength quote (before ++ after) = before.length) :
    after = [] ∨ [quote] <:+ before ∨ Text.StartsWithBreak after := by
  fun_induction quotedLength quote before with
  | case1 => exact (break_of_quotedLength_eq_zero length).imp id .inr
  | case2 => exact .inr (.inl List.suffix_rfl)
  | case3 => cases after <;> grind [quotedLength]
  | case4 =>
    cases after with
    | nil => exact .inl rfl
    | cons d rest =>
      have ended : quotedLength quote (d :: rest) = 0 := by grind [quotedLength]
      exact (break_of_quotedLength_eq_zero ended).imp id .inr
  | case5 c d rest escapes ih =>
    have length' : quotedLength quote (rest ++ after) = rest.length := by grind [quotedLength]
    exact (ih length').imp id fun ends => ends.imp
      (fun ends => ends.trans (List.suffix_append [c, d] rest)) id
  | case6 => grind [quotedLength]
  | case7 => grind [quotedLength]
  | case8 c d rest plain other inside ih =>
    have length' : quotedLength quote (d :: rest ++ after) = (d :: rest).length := by
      grind [quotedLength]
    exact (ih length').imp id fun ends => ends.imp
      (fun ends => ends.trans (List.suffix_cons c _)) id

/-- The length of a body is the same in each part of a text that is no shorter. -/
theorem bodyLength_of_append {kind : RegionKind} {before after : Text}
    (within : kind.bodyLength (before ++ after) ≤ before.length) :
    kind.bodyLength before = kind.bodyLength (before ++ after) := by
  cases kind with
  | lineComment => exact Text.firstLine_of_append within
  | blockComment => exact Text.lengthThrough_of_append within
  | string => exact quotedLength_of_append within
  | rawString => exact Text.lengthThrough_of_append within
  | character => exact quotedLength_of_append within

/-- Where nothing opens, nothing opens in a part of the text either. -/
theorem opening?_of_append_eq_none {before after : Text} (plain : opening? (before ++ after) = none) :
    opening? before = none := by
  rw [opening?_eq_none_iff] at plain ⊢
  intro kind
  rw [Bool.eq_false_iff, Ne, List.isPrefixOf_iff_prefix]
  intro opens
  have further := List.isPrefixOf_iff_prefix.mpr (opens.trans (List.prefix_append before after))
  exact absurd ((plain kind).symm.trans further) nofun

/-- A region that opens in a text is the same in each part of the text that it is within. -/
theorem opening?_of_append {before after : Text} {kind : RegionKind} {length : Nat}
    (opens : opening? (before ++ after) = some (kind, length)) (within : length ≤ before.length) :
    opening? before = some (kind, length) := by
  obtain ⟨rest, split, single, rfl⟩ := opening?_eq_some_iff.mp opens
  obtain ⟨body, rfl⟩ : kind.opener <+: before := by
    refine List.prefix_of_prefix_length_le (split ▸ List.prefix_append kind.opener rest)
      (List.prefix_append before after) ?_
    omega
  rw [List.append_assoc, List.append_cancel_left_eq] at split
  rw [List.length_append, Nat.add_le_add_iff_left, ← split] at within
  refine opening?_eq_some_iff.mpr ⟨body, rfl, fun string => ?_, ?_⟩
  · rw [Bool.eq_false_iff, Ne, List.isPrefixOf_iff_prefix]
    intro raw
    have further := List.isPrefixOf_iff_prefix.mpr (raw.trans (List.prefix_append _ after))
    exact absurd ((single string).symm.trans further) nofun
  · rw [bodyLength_of_append within, split]

/-- A scan can start anew at each place that is not strictly inside of a region. -/
theorem scanFrom_append_of_apart {position : Nat} {before after : Text}
    (apart : ∀ region ∈ scanFrom 0 position (before ++ after),
      region.stop ≤ position + before.length ∨ position + before.length ≤ region.start) :
    scanFrom 0 position (before ++ after) =
      scanFrom 0 position before ++ scanFrom 0 (position + before.length) after := by
  -- The steps of the scan are those of the whole text, and `before` becomes shorter with them.
  generalize whole : before ++ after = text at apart
  induction text using scanInduction generalizing position before with
  | nil =>
    obtain ⟨rfl, rfl⟩ := List.append_eq_nil_iff.mp whole
    rfl
  | plain c rest opens ih =>
    cases before with
    | nil =>
      rw [← whole]
      rfl
    | cons d before =>
      obtain ⟨rfl, rfl⟩ := List.cons.inj whole
      have opens' : opening? (d :: before) = none := opening?_of_append_eq_none opens
      rw [scanFrom_of_opening?_eq_none _ opens] at apart ⊢
      rw [scanFrom_of_opening?_eq_none _ opens', List.length_cons, Nat.add_comm before.length,
        ← Nat.add_assoc]
      apply ih rfl
      intro region member
      have free := apart region member
      rw [List.length_cons] at free
      omega
  | region text kind length opens ih =>
    cases before with
    | nil =>
      rw [← whole]
      rfl
    | cons d before =>
      rw [scanFrom_of_opening?_eq_some _ opens] at apart ⊢
      obtain ⟨positive, -⟩ := opening?_bounds opens
      have within : length ≤ (d :: before).length := by
        have free := apart _ List.mem_cons_self
        rw [List.length_cons] at free ⊢
        dsimp only at free
        omega
      have opens' : opening? (d :: before) = some (kind, length) :=
        opening?_of_append (whole ▸ opens) within
      have split : (d :: before).drop length ++ after = text.drop length := by
        rw [← whole, List.drop_append_of_le_length within]
      have same : position + length + ((d :: before).drop length).length =
          position + (d :: before).length := by
        rw [List.length_drop]
        omega
      rw [scanFrom_of_opening?_eq_some _ opens', List.cons_append, ← same]
      congr 1
      apply ih split
      intro region member
      rw [same]
      exact apart region (List.mem_cons_of_mem _ member)

/-- A text is cut in two for a scan at a place just if the place is not strictly inside of a region: the
regions are then those of the first part and those of the second part, moved to where this part stands. -/
theorem scan_restarts_iff (text : Text) (position : Nat) :
    scan text = scan (text.take position) ++ (scan (text.drop position)).map (moved position) ↔
      ∀ region ∈ scan text, ¬(region.start < position ∧ position < region.stop) := by
  constructor
  · intro cut region member
    rw [cut, List.mem_append, List.mem_map] at member
    rcases member with earlier | ⟨region, -, rfl⟩
    · have within := (mem_scan_bounds earlier).2
      rw [List.length_take] at within
      omega
    · exact fun inside => Nat.not_lt.mpr (Nat.le_add_left position region.start) inside.1
  · intro free
    rcases Nat.le_total text.length position with beyond | within
    · rw [List.take_of_length_le beyond, List.drop_of_length_le beyond]
      exact (List.append_nil _).symm
    · have length : (text.take position).length = position := List.length_take_of_le within
      have apart : ∀ region ∈ scanFrom 0 0 (text.take position ++ text.drop position),
          region.stop ≤ 0 + (text.take position).length ∨
            0 + (text.take position).length ≤ region.start := by
        intro region member
        rw [List.take_append_drop] at member
        have outside := free region member
        omega
      have cut := scanFrom_append_of_apart apart
      rw [List.take_append_drop, length, scanFrom_add] at cut
      exact cut

/-- What stands before a region and what stands after it is scanned as if it stood alone. -/
theorem scan_around {before middle after : Text} {kind : RegionKind}
    (member : ⟨before.length, before.length + middle.length, kind⟩ ∈
      scan (before ++ middle ++ after)) :
    opening? (middle ++ after) = some (kind, middle.length) ∧
      scan (before ++ middle ++ after) =
        scan before ++ ⟨before.length, before.length + middle.length, kind⟩ ::
          (scan after).map (moved (before.length + middle.length)) := by
  have opens : opening? (middle ++ after) = some (kind, middle.length) := by
    obtain ⟨start, length, same, opens⟩ := mem_scanFrom member
    rw [Nat.zero_add, mk.injEq] at same
    obtain ⟨rfl, stop, -⟩ := same
    obtain rfl := Nat.add_left_cancel stop
    rwa [List.append_assoc, List.drop_left] at opens
  rw [List.append_assoc] at member ⊢
  refine ⟨opens, ?_⟩
  have apart : ∀ region ∈ scanFrom 0 0 (before ++ (middle ++ after)),
      region.stop ≤ 0 + before.length ∨ 0 + before.length ≤ region.start := by
    intro region inText
    obtain ⟨positive, -⟩ := opening?_bounds opens
    by_cases same : region = ⟨before.length, before.length + middle.length, kind⟩
    · rw [same]
      exact .inr (Nat.le_of_eq (Nat.zero_add _))
    · have parted := apart_of_mem_scan inText member same
      dsimp only at parted
      omega
  have moved := scanFrom_add 0 (before.length + middle.length) after
  rw [Nat.zero_add] at moved
  rw [scan, scanFrom_append_of_apart apart, scanFrom_of_opening?_eq_some _ opens, List.drop_left,
    Nat.zero_add, moved]
  rfl

/-- The characters that a region can open or be closed with. -/
def delimiters : List Char :=
  ['/', '"', '\'']

/-- A region ends with its closer, before a line break, or with the text. -/
theorem exists_ending {middle after : Text} {kind : RegionKind}
    (opens : opening? (middle ++ after) = some (kind, middle.length)) :
    after = [] ∨ (∃ c ∈ delimiters, [c] <:+ middle) ∨ Text.StartsWithBreak after := by
  obtain ⟨rest, split, -, length⟩ := opening?_eq_some_iff.mp opens
  obtain ⟨body, rfl⟩ : kind.opener <+: middle := by
    refine List.prefix_of_prefix_length_le (split ▸ List.prefix_append kind.opener rest)
      (List.prefix_append middle after) ?_
    omega
  rw [List.append_assoc, List.append_cancel_left_eq] at split
  rw [List.length_append, Nat.add_left_cancel_iff, ← split] at length
  have closed : ∀ c ∈ delimiters, [c] <:+ body → ∃ c ∈ delimiters, [c] <:+ kind.opener ++ body :=
    fun c delimiter ends => ⟨c, delimiter, ends.trans (List.suffix_append _ _)⟩
  cases kind with
  | lineComment => exact (Text.ending_of_firstLine length.symm).imp id .inr
  | blockComment =>
    have slash : ['/'] <:+ commentCloser := List.suffix_append ['*'] ['/']
    exact (Text.suffix_of_lengthThrough (by decide) length.symm).imp id fun ends =>
      .inl (closed '/' (by decide) (slash.trans ends))
  | rawString =>
    have quote : ['"'] <:+ rawQuotes := List.suffix_append ['"', '"'] ['"']
    exact (Text.suffix_of_lengthThrough (by decide) length.symm).imp id fun ends =>
      .inl (closed '"' (by decide) (quote.trans ends))
  | string =>
    exact (ending_of_quotedLength length.symm).imp id fun ends =>
      ends.imp (closed '"' (by decide)) id
  | character =>
    exact (ending_of_quotedLength length.symm).imp id fun ends =>
      ends.imp (closed '\'' (by decide)) id

end Region

end KotlinHighlight
