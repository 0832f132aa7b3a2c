import KotlinHighlight.Proofs.Lines
import KotlinHighlight.Proofs.Region

/-! # Scanning across line feeds

Block comments and raw strings go on over line feeds, and nothing else does. So all that a scan
carries over a line feed is the kind of the region that is left open there, `pending`: what comes
after is scanned as it would be after the bare opener of such a region and a line feed
(`seen_eq_seenAfter`, `pending_append_feed`), and what came before is not changed by it (`seen_append_feed`).
-/

namespace KotlinHighlight

namespace Text

theorem firstLine_append_feed (text later : Text) :
    firstLine (text ++ '\n' :: later) = firstLine text := by
  induction text with
  | nil => rfl
  | cons c rest ih =>
    simp only [firstLine, List.cons_append, List.takeWhile_cons] at ih ⊢
    rw [ih]

/-- What has no line feed cannot start before one and end after it. -/
theorem isPrefixOf_append_feed {part : Text} (unbroken : '\n' ∉ part) (text later : Text) :
    part.isPrefixOf (text ++ '\n' :: later) = part.isPrefixOf text := by
  induction part generalizing text with
  | nil => rfl
  | cons first others ih =>
    rw [List.mem_cons, not_or] at unbroken
    cases text with
    | nil => simp [List.isPrefixOf, Ne.symm unbroken.1]
    | cons c rest => simp [List.isPrefixOf, ih unbroken.2]

theorem isPrefixOf_feed {part : Text} (unbroken : '\n' ∉ part) (nonempty : part ≠ []) (later : Text) :
    part.isPrefixOf ('\n' :: later) = false := by
  have same := isPrefixOf_append_feed unbroken [] later
  cases part with
  | nil => exact absurd rfl nonempty
  | cons first others => exact same

theorem occurs_append_feed {part : Text} (unbroken : '\n' ∉ part) (nonempty : part ≠ [])
    (text later : Text) :
    occurs part (text ++ '\n' :: later) = (occurs part text || occurs part later) := by
  induction text with
  | nil =>
    have empty : part.isEmpty = false := List.isEmpty_eq_false_iff.mpr nonempty
    rw [List.nil_append, occurs, occurs, isPrefixOf_feed unbroken nonempty, empty]
  | cons c rest ih =>
    have same := isPrefixOf_append_feed unbroken (c :: rest) later
    rw [List.cons_append] at same ⊢
    rw [occurs, occurs, same, ih, Bool.or_assoc]

/-- The first closer before a line feed counts, or else the first one after it. -/
theorem lengthThrough_append_feed {closer : Text} (unbroken : '\n' ∉ closer) (nonempty : closer ≠ [])
    (text later : Text) :
    lengthThrough closer (text ++ '\n' :: later) =
      if occurs closer text then lengthThrough closer text
      else text.length + 1 + lengthThrough closer later := by
  induction text with
  | nil =>
    have empty : closer.isEmpty = false := List.isEmpty_eq_false_iff.mpr nonempty
    simp only [List.nil_append, lengthThrough, isPrefixOf_feed unbroken nonempty, occurs, empty,
      List.length_nil, Bool.false_eq_true, if_false]
    omega
  | cons c rest ih =>
    have same := isPrefixOf_append_feed unbroken (c :: rest) later
    rw [List.cons_append] at same ⊢
    rw [lengthThrough, lengthThrough, occurs, same, ih]
    by_cases here : closer.isPrefixOf (c :: rest)
    · simp [here]
    · by_cases further : occurs closer rest
      · simp [here, further]
      · simp [here, further, Nat.add_right_comm]

theorem lengthThrough_of_not_occurs {closer text : Text} (absent : occurs closer text = false) :
    lengthThrough closer text = text.length := by
  induction text with
  | nil => rfl
  | cons c rest ih =>
    rw [occurs, Bool.or_eq_false_iff] at absent
    rw [lengthThrough, absent.1, ih absent.2]
    rfl

end Text

namespace RegionKind

/-- What ends a region of a kind that goes on over line feeds. -/
def closer? : RegionKind → Option Text
  | blockComment => some Region.commentCloser
  | rawString => some Region.rawQuotes
  | lineComment | string | character => none

/-- Whether a region of a kind at the start of a text is still open at its end. -/
def staysOpen (kind : RegionKind) (text : Text) : Bool :=
  kind.closer?.any fun closer => !Text.occurs closer (text.drop kind.opener.length)

theorem closer?_bounds {kind : RegionKind} {closer : Text} (closes : kind.closer? = some closer) :
    closer ≠ [] ∧ '\n' ∉ closer := by
  cases kind <;> simp only [closer?, reduceCtorEq, Option.some.injEq] at closes <;> subst closes <;>
    decide

end RegionKind

namespace Region

theorem quotedLength_append_feed {quote : Char} (different : quote ≠ '\n') (text later : Text) :
    quotedLength quote (text ++ '\n' :: later) = quotedLength quote text := by
  have breaks : Text.isLineBreak '\n' = true := rfl
  have feed : ∀ rest, quotedLength quote ('\n' :: rest) = 0 := by
    intro rest
    cases rest <;> simp [quotedLength, Ne.symm different, breaks]
  fun_induction quotedLength quote text with
  | case1 => exact feed later
  | case2 => simp [quotedLength, breaks]
  | case3 c other stops => simp [quotedLength, breaks, other, stops]
  | case4 c other inside => simp [quotedLength, breaks, other, inside, feed]
  | case5 c d rest escapes ih => simp [quotedLength, escapes, ih]
  | case6 d rest plain => simp [quotedLength, plain]
  | case7 c d rest plain other stops => simp [quotedLength, plain, other, stops]
  | case8 c d rest plain other inside ih =>
    rw [List.cons_append] at ih
    simp [quotedLength, plain, other, inside, ih]

theorem not_mem_opener (kind : RegionKind) : '\n' ∉ kind.opener := by
  cases kind <;> decide

theorem rawQuotes_isPrefixOf_append_feed (text later : Text) :
    rawQuotes.isPrefixOf (text ++ '\n' :: later) = rawQuotes.isPrefixOf text :=
  Text.isPrefixOf_append_feed (by decide) text later

/-- Where nothing opens, nothing opens before a line feed either. -/
theorem opening?_append_feed_eq_none {text : Text} (plain : opening? text = none) (later : Text) :
    opening? (text ++ '\n' :: later) = none := by
  rw [opening?_eq_none_iff] at plain ⊢
  intro kind
  rw [Text.isPrefixOf_append_feed (not_mem_opener kind), plain kind]

/-- A region that a line feed cannot stand in has its end before the line feed. -/
theorem bodyLength_append_feed {kind : RegionKind} (single : kind.closer? = none)
    (text later : Text) : kind.bodyLength (text ++ '\n' :: later) = kind.bodyLength text := by
  cases kind with
  | lineComment =>
    rw [RegionKind.bodyLength, RegionKind.bodyLength, Text.firstLine_append_feed]
  | string =>
    rw [RegionKind.bodyLength, RegionKind.bodyLength, quotedLength_append_feed (by decide)]
  | character =>
    rw [RegionKind.bodyLength, RegionKind.bodyLength, quotedLength_append_feed (by decide)]
  | blockComment => exact absurd single (Option.some_ne_none _)
  | rawString => exact absurd single (Option.some_ne_none _)

/-- A region that line feeds may stand in goes on through its closer. -/
theorem bodyLength_of_closer? {kind : RegionKind} {closer : Text}
    (closes : kind.closer? = some closer) (text : Text) :
    kind.bodyLength text = Text.lengthThrough closer text := by
  cases kind <;> simp only [RegionKind.closer?, reduceCtorEq, Option.some.injEq] at closes <;>
    subst closes <;> rfl

theorem opening?_feed (later : Text) : opening? ('\n' :: later) = none := by
  have empty : opening? [] = none := rfl
  exact opening?_append_feed_eq_none empty later

/-- A region that is closed at the end of a text is the same before a line feed. One that is open
there goes on through its first closer. -/
theorem opening?_append_feed_eq_some {text : Text} {kind : RegionKind} {length : Nat}
    (opens : opening? text = some (kind, length)) (later : Text) :
    (kind.staysOpen text = false ∧ opening? (text ++ '\n' :: later) = some (kind, length)) ∨
      ∃ closer, kind.closer? = some closer ∧ kind.staysOpen text = true ∧ length = text.length ∧
        opening? (text ++ '\n' :: later) =
          some (kind, text.length + 1 + Text.lengthThrough closer later) := by
  obtain ⟨rest, rfl, single, rfl⟩ := opening?_eq_some_iff.mp opens
  have single' : kind = .string →
      rawQuotes.isPrefixOf (kind.opener ++ rest ++ '\n' :: later) = false := by
    intro string
    rw [rawQuotes_isPrefixOf_append_feed, single string]
  have opens' : opening? (kind.opener ++ rest ++ '\n' :: later) =
      some (kind, kind.opener.length + kind.bodyLength (rest ++ '\n' :: later)) :=
    opening?_eq_some_iff.mpr ⟨_, List.append_assoc .., single', rfl⟩
  rw [opens', RegionKind.staysOpen, List.drop_left]
  cases closes : kind.closer? with
  | none =>
    left
    rw [bodyLength_append_feed closes]
    exact ⟨rfl, rfl⟩
  | some closer =>
    obtain ⟨nonempty, unbroken⟩ := RegionKind.closer?_bounds closes
    rw [bodyLength_of_closer? closes, bodyLength_of_closer? closes,
      Text.lengthThrough_append_feed unbroken nonempty]
    cases found : Text.occurs closer rest with
    | true => exact .inl ⟨by simp [found], by rw [if_pos rfl]⟩
    | false =>
      refine .inr ⟨closer, rfl, by simp [found], ?_, ?_⟩
      · rw [Text.lengthThrough_of_not_occurs found, List.length_append]
      · rw [if_neg nofun, List.length_append, Nat.add_assoc, Nat.add_assoc, Nat.add_assoc]

theorem opening?_append_feed_of_closed {text : Text} {kind : RegionKind} {length : Nat}
    (opens : opening? text = some (kind, length)) (closed : kind.staysOpen text = false)
    (later : Text) : opening? (text ++ '\n' :: later) = some (kind, length) := by
  rcases opening?_append_feed_eq_some opens later with ⟨-, opens'⟩ | ⟨_, -, stays, -⟩
  · exact opens'
  · exact absurd (closed.symm.trans stays) Bool.false_ne_true

/-- A region that is open at the end of a text has the length of the text, and its closer is the same
whatever follows. -/
theorem exists_closer_of_staysOpen {text : Text} {kind : RegionKind} {length : Nat}
    (opens : opening? text = some (kind, length)) (stays : kind.staysOpen text = true) :
    length = text.length ∧ ∃ closer, kind.closer? = some closer ∧
      ∀ later, opening? (text ++ '\n' :: later) =
        some (kind, text.length + 1 + Text.lengthThrough closer later) := by
  have goesOn : ∀ later, ∃ closer, kind.closer? = some closer ∧ length = text.length ∧
      opening? (text ++ '\n' :: later) =
        some (kind, text.length + 1 + Text.lengthThrough closer later) := by
    intro later
    rcases opening?_append_feed_eq_some opens later with ⟨closed, -⟩ | ⟨closer, closes, -, found⟩
    · exact absurd (closed.symm.trans stays) Bool.false_ne_true
    · exact ⟨closer, closes, found⟩
  obtain ⟨closer, closes, whole, -⟩ := goesOn []
  refine ⟨whole, closer, closes, fun later => ?_⟩
  obtain ⟨other, same, -, found⟩ := goesOn later
  obtain rfl := Option.some.inj (closes.symm.trans same)
  exact found

/-- The kind of the region that is open at the end of a text, after its next `skip` characters. -/
def pendingFrom (skip : Nat) : Text → Option RegionKind
  | [] => none
  | c :: rest =>
    match skip with
    | skip + 1 => pendingFrom skip rest
    | 0 =>
      match opening? (c :: rest) with
      | none => pendingFrom 0 rest
      | some (kind, length) =>
        if kind.staysOpen (c :: rest) then some kind else pendingFrom (length - 1) rest

/-- The kind of the region that a text leaves open for the lines after it. -/
def pending (text : Text) : Option RegionKind :=
  pendingFrom 0 text

theorem pendingFrom_skip (skip : Nat) (text : Text) :
    pendingFrom skip text = pending (text.drop skip) := by
  induction text generalizing skip with
  | nil => simp [pendingFrom, pending]
  | cons c rest ih =>
    cases skip with
    | zero => rfl
    | succ skip => rw [pendingFrom, ih, List.drop_succ_cons]

theorem pending_of_opening?_eq_none {c : Char} {rest : Text}
    (plain : opening? (c :: rest) = none) : pending (c :: rest) = pending rest := by
  simp [pending, pendingFrom, plain]

theorem pending_of_opening?_eq_some {text : Text} {kind : RegionKind} {length : Nat}
    (opens : opening? text = some (kind, length)) :
    pending text = if kind.staysOpen text then some kind else pending (text.drop length) := by
  obtain ⟨positive, -⟩ := opening?_bounds opens
  cases text with
  | nil => exact absurd opens nofun
  | cons c rest =>
    obtain ⟨more, rfl⟩ : ∃ more, length = more + 1 := ⟨length - 1, by omega⟩
    rw [pending, pendingFrom, opens, List.drop_succ_cons]
    simp only [Nat.add_sub_cancel, pendingFrom_skip]

/-- After a text that leaves no region open a scan starts anew on the next line. -/
theorem scanFrom_append_feed {before : Text} (closed : pending before = none) (position : Nat)
    (after : Text) :
    scanFrom 0 position (before ++ '\n' :: after) =
      scanFrom 0 position before ++ scanFrom 0 (position + before.length + 1) after := by
  induction before using scanInduction generalizing position with
  | nil =>
    exact scanFrom_of_opening?_eq_none position (opening?_feed after)
  | plain c rest opens ih =>
    rw [pending_of_opening?_eq_none opens] at closed
    have opens' := opening?_append_feed_eq_none opens after
    rw [List.cons_append] at opens' ⊢
    rw [scanFrom_of_opening?_eq_none position opens', scanFrom_of_opening?_eq_none position opens,
      ih closed, List.length_cons]
    congr 2
    omega
  | region text kind length opens ih =>
    obtain ⟨-, within⟩ := opening?_bounds opens
    rw [pending_of_opening?_eq_some opens] at closed
    rcases opening?_append_feed_eq_some opens after with ⟨stays, opens'⟩ | ⟨_, -, stays, -⟩
    · rw [stays] at closed
      rw [scanFrom_of_opening?_eq_some position opens', scanFrom_of_opening?_eq_some position opens,
        List.drop_append_of_le_length within, ih closed, List.cons_append, List.length_drop]
      congr 3
      omega
    · rw [stays] at closed
      exact absurd closed nofun

/-- A region that a text leaves open goes on through its first closer, and a scan starts anew after
that. -/
theorem exists_scanFrom_eq_of_pending {before : Text} {kind : RegionKind}
    (leaves : pending before = some kind) (position : Nat) :
    ∃ closer earlier start, kind.closer? = some closer ∧
      scanFrom 0 position before = earlier ++ [⟨start, position + before.length, kind⟩] ∧
      ∀ after, scanFrom 0 position (before ++ '\n' :: after) =
        earlier ++ ⟨start, position + before.length + 1 + Text.lengthThrough closer after, kind⟩ ::
          scanFrom 0 (position + before.length + 1 + Text.lengthThrough closer after)
            (after.drop (Text.lengthThrough closer after)) := by
  induction before using scanInduction generalizing position with
  | nil => exact absurd leaves nofun
  | plain c rest opens ih =>
    rw [pending_of_opening?_eq_none opens] at leaves
    obtain ⟨closer, earlier, start, closes, same, more⟩ := ih leaves (position + 1)
    have moved : position + 1 + rest.length = position + (c :: rest).length := by
      rw [List.length_cons]
      omega
    rw [moved] at same more
    refine ⟨closer, earlier, start, closes, ?_, fun after => ?_⟩
    · rw [scanFrom_of_opening?_eq_none position opens, same]
    · have opens' := opening?_append_feed_eq_none opens after
      rw [List.cons_append] at opens' ⊢
      rw [scanFrom_of_opening?_eq_none position opens', more after]
  | region text first length opens ih =>
    obtain ⟨-, within⟩ := opening?_bounds opens
    rw [pending_of_opening?_eq_some opens] at leaves
    cases stays : first.staysOpen text with
    | false =>
      rw [stays] at leaves
      obtain ⟨closer, earlier, start, closes, same, more⟩ := ih leaves (position + length)
      have moved : position + length + (text.drop length).length = position + text.length := by
        rw [List.length_drop]
        omega
      rw [moved] at same more
      refine ⟨closer, ⟨position, position + length, first⟩ :: earlier, start, closes, ?_,
        fun after => ?_⟩
      · rw [scanFrom_of_opening?_eq_some position opens, same, List.cons_append]
      · rw [scanFrom_of_opening?_eq_some position (opening?_append_feed_of_closed opens stays after),
          List.drop_append_of_le_length within, more after, List.cons_append]
    | true =>
      rw [stays, if_pos rfl, Option.some.injEq] at leaves
      subst leaves
      obtain ⟨rfl, closer, closes, opens'⟩ := exists_closer_of_staysOpen opens stays
      refine ⟨closer, [], position, closes, ?_, fun after => ?_⟩
      · rw [scanFrom_of_opening?_eq_some position opens, List.drop_length]
        rfl
      · rw [scanFrom_of_opening?_eq_some position (opens' after), Nat.add_assoc text.length,
          List.drop_length_add_append, Nat.add_comm 1, List.drop_succ_cons, List.nil_append]
        simp only [Nat.add_assoc, Nat.add_comm 1]

/-- A region stays open over a line feed if it is open there and its closer does not follow. -/
theorem staysOpen_append_feed (kind : RegionKind) (rest later : Text) :
    kind.staysOpen (kind.opener ++ rest ++ '\n' :: later) =
      (kind.staysOpen (kind.opener ++ rest) &&
        kind.closer?.any fun closer => !Text.occurs closer later) := by
  rw [RegionKind.staysOpen, RegionKind.staysOpen, List.append_assoc, List.drop_left, List.drop_left]
  cases closes : kind.closer? with
  | none => rfl
  | some closer =>
    obtain ⟨nonempty, unbroken⟩ := RegionKind.closer?_bounds closes
    simp only [Option.any_some, Text.occurs_append_feed unbroken nonempty, Bool.not_or]

/-- What a region of a kind that is open leaves open after the next line feed. -/
def pendingAfter (carried : Option RegionKind) (later : Text) : Option RegionKind :=
  match carried.bind RegionKind.closer? with
  | none => pending later
  | some closer =>
    if Text.occurs closer later then pending (later.drop (Text.lengthThrough closer later))
    else carried

/-- What a text leaves open is settled line by line. -/
theorem pending_append_feed (before after : Text) :
    pending (before ++ '\n' :: after) = pendingAfter (pending before) after := by
  induction before using scanInduction with
  | nil => exact pending_of_opening?_eq_none (opening?_feed after)
  | plain c rest opens ih =>
    have opens' := opening?_append_feed_eq_none opens after
    rw [List.cons_append] at opens' ⊢
    rw [pending_of_opening?_eq_none opens', pending_of_opening?_eq_none opens, ih]
  | region text kind length opens ih =>
    obtain ⟨-, within⟩ := opening?_bounds opens
    obtain ⟨rest, same, -, -⟩ := opening?_eq_some_iff.mp opens
    have stays := staysOpen_append_feed kind rest after
    rw [← same] at stays
    rcases opening?_append_feed_eq_some opens after with
      ⟨closed, opens'⟩ | ⟨closer, closes, open', -, opens'⟩
    · rw [closed, Bool.false_and] at stays
      rw [pending_of_opening?_eq_some opens', pending_of_opening?_eq_some opens, closed, stays,
        List.drop_append_of_le_length within]
      exact ih
    · rw [open', Bool.true_and, closes, Option.any_some] at stays
      rw [pending_of_opening?_eq_some opens', pending_of_opening?_eq_some opens, open', stays,
        Nat.add_assoc text.length, List.drop_length_add_append, Nat.add_comm 1, List.drop_succ_cons]
      simp only [if_true, pendingAfter, Option.bind_some, closes]
      cases Text.occurs closer after <;> rfl

/-- A text that leaves a region of a kind open, and nothing else. -/
def leadIn (carried : Option RegionKind) : Text :=
  carried.elim [] RegionKind.opener

theorem closer?_isSome_of_pending {text : Text} {kind : RegionKind}
    (leaves : pending text = some kind) : kind.closer?.isSome = true := by
  obtain ⟨closer, _, _, closes, -⟩ := exists_scanFrom_eq_of_pending leaves 0
  rw [closes, Option.isSome_some]

/-- The opener of a region that a text leaves open leaves it open too. -/
theorem pending_leadIn_pending (text : Text) : pending (leadIn (pending text)) = pending text := by
  cases leaves : pending text with
  | none => rfl
  | some kind =>
    have goesOn := closer?_isSome_of_pending leaves
    cases kind with
    | blockComment => rfl
    | rawString => rfl
    | lineComment => exact absurd goesOn nofun
    | string => exact absurd goesOn nofun
    | character => exact absurd goesOn nofun

/-- The part of a region in an interval, counted from the start of the interval. -/
def seen? (start stop : Nat) (region : Region) : Option Region :=
  if max region.start start < min region.stop stop then
    some ⟨max region.start start - start, min region.stop stop - start, region.kind⟩
  else none

theorem filterMap_seen?_eq_nil {start stop : Nat} {regions : List Region}
    (apart : ∀ region ∈ regions, region.stop ≤ start ∨ stop ≤ region.start) :
    regions.filterMap (seen? start stop) = [] := by
  rw [List.filterMap_eq_nil_iff]
  intro region member
  have outside := apart region member
  exact if_neg (by omega)

/-- Moving both the region and the interval changes nothing. -/
theorem seen?_moved (distance start stop : Nat) (region : Region) :
    seen? (start + distance) (stop + distance) (region.moved distance) = seen? start stop region := by
  have left : max (region.start + distance) (start + distance) - (start + distance) =
      max region.start start - start := by omega
  have right : min (region.stop + distance) (stop + distance) - (start + distance) =
      min region.stop stop - start := by omega
  rw [seen?, seen?, moved]
  simp only [left, right]
  refine if_congr ?_ rfl rfl
  omega

/-- Where a text stands does not matter for what is seen of it. -/
theorem filterMap_seen?_scanFrom (origin position size : Nat) (text : Text) :
    (scanFrom 0 (origin + position) text).filterMap (seen? origin (origin + size)) =
      (scanFrom 0 position text).filterMap (seen? 0 size) := by
  rw [Nat.add_comm origin position, scanFrom_add, List.filterMap_map]
  apply List.filterMap_congr
  intro region _
  have same := seen?_moved origin 0 size region
  rwa [Nat.zero_add, Nat.add_comm size] at same

/-- Of a region that started earlier the rest is seen. -/
theorem seen?_of_le {start origin : Nat} (earlier : start ≤ origin) (rest size : Nat)
    (kind : RegionKind) :
    seen? origin (origin + size) ⟨start, origin + rest, kind⟩ = seen? 0 size ⟨0, rest, kind⟩ := by
  have left : max start origin - origin = max 0 0 - 0 := by omega
  have right : min (origin + rest) (origin + size) - origin = min rest size - 0 := by omega
  simp only [seen?, left, right]
  refine if_congr ?_ rfl rfl
  omega

/-- After a text that leaves no region open a scan starts anew on the next line. -/
theorem scan_append_feed {before : Text} (closed : pending before = none) (after : Text) :
    scan (before ++ '\n' :: after) = scan before ++ scanFrom 0 (before.length + 1) after := by
  have split := scanFrom_append_feed closed 0 after
  rwa [Nat.zero_add] at split

/-- A region that a text leaves open goes on through its first closer, and a scan starts anew after
that. -/
theorem exists_scan_eq_of_pending {before : Text} {kind : RegionKind}
    (leaves : pending before = some kind) :
    ∃ closer earlier start, kind.closer? = some closer ∧ start < before.length ∧
      scan before = earlier ++ [⟨start, before.length, kind⟩] ∧
      (∀ region ∈ earlier, region ∈ scan before) ∧
      ∀ after, scan (before ++ '\n' :: after) =
        earlier ++ ⟨start, before.length + 1 + Text.lengthThrough closer after, kind⟩ ::
          scanFrom 0 (before.length + 1 + Text.lengthThrough closer after)
            (after.drop (Text.lengthThrough closer after)) := by
  obtain ⟨closer, earlier, start, closes, same, more⟩ := exists_scanFrom_eq_of_pending leaves 0
  rw [Nat.zero_add] at same more
  have last : ⟨start, before.length, kind⟩ ∈ scan before := by
    rw [scan, same]
    exact List.mem_append_right _ (List.mem_singleton_self _)
  refine ⟨closer, earlier, start, closes, (mem_scan_bounds last).1, same, ?_, more⟩
  intro region member
  rw [scan, same]
  exact List.mem_append_left _ member

/-- What stands after a line feed is not seen before it. -/
theorem seen_append_feed {before : Text} {stop : Nat} (within : stop ≤ before.length)
    (start : Nat) (after : Text) :
    (scan (before ++ '\n' :: after)).filterMap (seen? start stop) =
      (scan before).filterMap (seen? start stop) := by
  have late : ∀ position text, before.length < position →
      (scanFrom 0 position text).filterMap (seen? start stop) = [] := by
    intro position text beyond
    refine filterMap_seen?_eq_nil fun region member => .inr ?_
    have bounds := mem_scanFrom_bounds member
    omega
  cases leaves : pending before with
  | none =>
    rw [scan_append_feed leaves, List.filterMap_append, late _ _ (Nat.lt_succ_self _),
      List.append_nil]
  | some kind =>
    obtain ⟨closer, earlier, first, -, -, same, -, more⟩ := exists_scan_eq_of_pending leaves
    have cut : ∀ last, before.length ≤ last →
        seen? start stop ⟨first, last, kind⟩ = seen? start stop ⟨first, before.length, kind⟩ := by
      intro last beyond
      have least : min last stop = min before.length stop := by omega
      simp only [seen?, least]
    rw [more after, same, List.filterMap_append, List.filterMap_append, List.filterMap_cons,
      List.filterMap_cons, cut _ (by omega), late _ _ (by omega), List.filterMap_nil]

/-- What is seen of a text after an open region of a kind: the rest of that region and the regions
after it. -/
def seenAfter (carried : Option RegionKind) (size : Nat) (later : Text) : List Region :=
  match carried.bind RegionKind.closer?, carried with
  | some closer, some kind =>
    let rest := Text.lengthThrough closer later
    (⟨0, rest, kind⟩ :: scanFrom 0 rest (later.drop rest)).filterMap (seen? 0 size)
  | _, _ => (scan later).filterMap (seen? 0 size)

/-- What is seen of a text after a line feed depends on what was left open there. -/
theorem seen_eq_seenAfter (before after : Text) (size : Nat) :
    (scan (before ++ '\n' :: after)).filterMap
        (seen? (before.length + 1) (before.length + 1 + size)) =
      seenAfter (pending before) size after := by
  have early : ∀ regions : List Region, (∀ region ∈ regions, region ∈ scan before) →
      regions.filterMap (seen? (before.length + 1) (before.length + 1 + size)) = [] := by
    intro regions inside
    refine filterMap_seen?_eq_nil fun region member => .inl ?_
    have bounds := mem_scan_bounds (inside region member)
    omega
  cases leaves : pending before with
  | none =>
    have moved := filterMap_seen?_scanFrom (before.length + 1) 0 size after
    rw [Nat.add_zero] at moved
    rw [scan_append_feed leaves, List.filterMap_append, early _ (fun _ member => member),
      List.nil_append, moved]
    rfl
  | some kind =>
    obtain ⟨closer, earlier, first, closes, opened, -, inside, more⟩ :=
      exists_scan_eq_of_pending leaves
    have known : seenAfter (some kind) size after =
        (⟨0, Text.lengthThrough closer after, kind⟩ ::
          scanFrom 0 (Text.lengthThrough closer after)
            (after.drop (Text.lengthThrough closer after))).filterMap (seen? 0 size) := by
      simp only [seenAfter, Option.bind_some, closes]
    rw [more after, List.filterMap_append, early _ inside, List.nil_append, List.filterMap_cons,
      seen?_of_le (by omega), filterMap_seen?_scanFrom, known, List.filterMap_cons]

/-- A line feed is inside the region that is left open there, and inside no other. -/
theorem find?_holds_feed (before after : Text) :
    ((scan (before ++ '\n' :: after)).find? (·.holds before.length)).map (·.kind) =
      pending before := by
  have apart : ∀ regions : List Region, (∀ region ∈ regions, region ∈ scan before) →
      regions.find? (·.holds before.length) = none := by
    intro regions inside
    rw [List.find?_eq_none]
    intro region member holds
    have bounds := mem_scan_bounds (inside region member)
    rw [holds_iff] at holds
    omega
  cases leaves : pending before with
  | none =>
    rw [scan_append_feed leaves, List.find?_append, apart _ (fun _ member => member),
      Option.none_or, Option.map_eq_none_iff, List.find?_eq_none]
    intro region member holds
    have bounds := mem_scanFrom_bounds member
    rw [holds_iff] at holds
    omega
  | some kind =>
    obtain ⟨closer, earlier, first, -, opened, -, inside, more⟩ := exists_scan_eq_of_pending leaves
    have holds : holds ⟨first, before.length + 1 + Text.lengthThrough closer after, kind⟩
        before.length = true := by
      rw [holds_iff]
      simp only
      omega
    rw [more after, List.find?_append, apart _ inside, Option.none_or, List.find?_cons, holds]
    rfl

/-- A line feed at the end of a text closes nothing. -/
theorem pending_append_singleton_feed (before : Text) :
    pending (before ++ ['\n']) = pending before := by
  rw [pending_append_feed]
  cases leaves : pending before with
  | none => rfl
  | some kind =>
    obtain ⟨closer, closes⟩ := Option.isSome_iff_exists.mp (closer?_isSome_of_pending leaves)
    have empty : Text.occurs closer [] = false :=
      List.isEmpty_eq_false_iff.mpr (RegionKind.closer?_bounds closes).1
    rw [pendingAfter, Option.bind_some, closes]
    simp only [empty, Bool.false_eq_true, if_false]

/-- What whole lines leave open depends on what was left open before them. -/
theorem pending_append {before : Text} (starts : Text.StartsLine before) (middle : Text) :
    pending (before ++ middle) = pendingAfter (pending before) middle := by
  rcases starts with rfl | ⟨earlier, rfl⟩
  · rfl
  · rw [pending_append_singleton_feed, List.append_assoc, List.singleton_append,
      pending_append_feed]

/-- What is seen of whole lines depends on them and on what was left open before them. -/
theorem seen_lines {before after : Text} (starts : Text.StartsLine before)
    (stops : Text.StopsLine after) (middle : Text) :
    (scan (before ++ middle ++ after)).filterMap
        (seen? before.length (before.length + middle.length)) =
      seenAfter (pending before) middle.length middle := by
  have shorter : (scan (before ++ middle ++ after)).filterMap
        (seen? before.length (before.length + middle.length)) =
      (scan (before ++ middle)).filterMap
        (seen? before.length (before.length + middle.length)) := by
    rcases stops with rfl | ⟨later, rfl⟩
    · rw [List.append_nil]
    · exact seen_append_feed (Nat.le_of_eq List.length_append.symm) _ later
  rw [shorter]
  rcases starts with rfl | ⟨earlier, rfl⟩
  · rw [List.nil_append, List.length_nil, Nat.zero_add]
    rfl
  · rw [pending_append_singleton_feed, List.append_assoc, List.singleton_append,
      List.length_append, List.length_singleton, seen_eq_seenAfter]

end Region

end KotlinHighlight
