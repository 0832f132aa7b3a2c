import Mathlib.Order.Monotone.Basic
import KotlinHighlight.Proofs.Region.Pending

/-! # Line endings and regions

A carriage return before each line feed moves the regions of a text and changes nothing else
(`scan_crlf`). A region that stops before a line feed stops before the carriage return instead, one that
goes on over line feeds goes on over both, and neither of the two is a part of an opener or a closer.
-/

namespace KotlinHighlight

namespace Text

/-- A text with a carriage return before each line feed. -/
def crlf (text : Text) : Text :=
  text.flatMap fun c => if c = '\n' then ['\r', '\n'] else [c]

/-- Where a position of a text is then: further on by the line feeds before it. -/
def crlfPosition (text : Text) (position : Nat) : Nat :=
  position + (text.take position).count '\n'

@[simp] theorem crlf_nil : crlf [] = [] :=
  rfl

theorem crlf_feed (rest : Text) : crlf ('\n' :: rest) = '\r' :: '\n' :: crlf rest :=
  rfl

theorem crlf_cons_of_ne {c : Char} (other : c ≠ '\n') (rest : Text) :
    crlf (c :: rest) = c :: crlf rest := by
  rw [crlf, List.flatMap_cons, if_neg other]
  rfl

theorem crlf_append (before after : Text) : crlf (before ++ after) = crlf before ++ crlf after :=
  List.flatMap_append

theorem crlf_of_not_mem {text : Text} (unbroken : '\n' ∉ text) : crlf text = text := by
  induction text with
  | nil => rfl
  | cons c rest ih =>
    rw [List.mem_cons, not_or] at unbroken
    rw [crlf_cons_of_ne (Ne.symm unbroken.1), ih unbroken.2]

theorem length_crlf (text : Text) : (crlf text).length = text.length + text.count '\n' := by
  induction text with
  | nil => rfl
  | cons c rest ih =>
    by_cases feed : c = '\n'
    · subst feed
      rw [crlf_feed, List.count_cons_self, List.length_cons, List.length_cons, List.length_cons, ih]
      omega
    · rw [crlf_cons_of_ne feed, List.count_cons_of_ne feed, List.length_cons, List.length_cons, ih]
      omega

@[simp] theorem crlfPosition_zero (text : Text) : crlfPosition text 0 = 0 :=
  rfl

theorem crlfPosition_append (before after : Text) (position : Nat) :
    crlfPosition (before ++ after) (before.length + position) =
      (crlf before).length + crlfPosition after position := by
  rw [crlfPosition, crlfPosition, List.take_length_add_append, List.count_append, length_crlf]
  omega

theorem crlfPosition_feed (rest : Text) (position : Nat) :
    crlfPosition ('\n' :: rest) (position + 1) = crlfPosition rest position + 2 := by
  have parted := crlfPosition_append ['\n'] rest position
  rw [List.length_singleton, Nat.add_comm 1, Nat.add_comm (crlf ['\n']).length] at parted
  exact parted

theorem crlfPosition_cons_of_ne {c : Char} (other : c ≠ '\n') (rest : Text) (position : Nat) :
    crlfPosition (c :: rest) (position + 1) = crlfPosition rest position + 1 := by
  have parted := crlfPosition_append [c] rest position
  rw [List.length_singleton, Nat.add_comm 1, Nat.add_comm (crlf [c]).length,
    crlf_cons_of_ne other] at parted
  exact parted

/-- Different positions stay different and in order. -/
theorem crlfPosition_strictMono (text : Text) : StrictMono (crlfPosition text) := by
  intro first second before
  have further : (text.take first).count '\n' ≤ (text.take second).count '\n' :=
    (List.take_prefix_take_left (Nat.le_of_lt before)).sublist.count_le '\n'
  rw [crlfPosition, crlfPosition]
  omega

theorem length_crlf_take {text : Text} {position : Nat} (within : position ≤ text.length) :
    (crlf (text.take position)).length = crlfPosition text position := by
  rw [length_crlf, List.length_take_of_le within, crlfPosition]

/-- What stands after a position is what stood after it before. -/
theorem drop_crlfPosition {text : Text} {position : Nat} (within : position ≤ text.length) :
    (crlf text).drop (crlfPosition text position) = crlf (text.drop position) := by
  have split : crlf text = crlf (text.take position) ++ crlf (text.drop position) := by
    rw [← crlf_append, List.take_append_drop]
  rw [← length_crlf_take within, split, List.drop_left]

theorem isPrefixOf_break {part : Text} (nonempty : part ≠ []) (unbroken : part.all (!isLineBreak ·) = true)
    {c : Char} (breaks : isLineBreak c = true) (rest : Text) : part.isPrefixOf (c :: rest) = false := by
  obtain ⟨first, others, rfl⟩ := List.exists_cons_of_ne_nil nonempty
  have other : (first == c) = false := by
    rw [beq_eq_false_iff_ne]
    rintro rfl
    rw [List.all_cons, breaks] at unbroken
    exact absurd unbroken nofun
  rw [List.isPrefixOf, other, Bool.false_and]

/-- What has no line break stands where it stood. -/
theorem isPrefixOf_crlf {part : Text} (unbroken : part.all (!isLineBreak ·) = true) (text : Text) :
    part.isPrefixOf (crlf text) = part.isPrefixOf text := by
  induction part generalizing text with
  | nil => rfl
  | cons first others ih =>
    cases text with
    | nil => rfl
    | cons c rest =>
      by_cases feed : c = '\n'
      · rw [feed, crlf_feed, isPrefixOf_break (List.cons_ne_nil _ _) unbroken rfl,
          isPrefixOf_break (List.cons_ne_nil _ _) unbroken rfl]
      · rw [List.all_cons, Bool.and_eq_true] at unbroken
        rw [crlf_cons_of_ne feed, List.isPrefixOf, List.isPrefixOf, ih unbroken.2]

theorem length_firstLine_crlf (text : Text) :
    (firstLine (crlf text)).length = crlfPosition text (firstLine text).length := by
  induction text with
  | nil => rfl
  | cons c rest ih =>
    by_cases feed : c = '\n'
    · subst feed
      rfl
    · rw [firstLine, firstLine] at ih
      rw [crlf_cons_of_ne feed, firstLine, firstLine, List.takeWhile_cons, List.takeWhile_cons]
      split
      · rw [List.length_cons, List.length_cons, ih, crlfPosition_cons_of_ne feed]
      · rfl

/-- The first closer stays the first one. -/
theorem lengthThrough_crlf {closer : Text} (nonempty : closer ≠ [])
    (unbroken : closer.all (!isLineBreak ·) = true) (text : Text) :
    lengthThrough closer (crlf text) = crlfPosition text (lengthThrough closer text) := by
  induction text with
  | nil => rfl
  | cons c rest ih =>
    by_cases feed : c = '\n'
    · have notHere : ∀ {c : Char}, isLineBreak c = true → ∀ rest,
          ¬closer.isPrefixOf (c :: rest) = true := by
        intro c breaks rest
        rw [isPrefixOf_break nonempty unbroken breaks]
        exact Bool.false_ne_true
      rw [feed, crlf_feed, lengthThrough, lengthThrough, lengthThrough, if_neg (notHere rfl _),
        if_neg (notHere rfl _), if_neg (notHere rfl _), ih, crlfPosition_feed]
    · have same := isPrefixOf_crlf unbroken (c :: rest)
      rw [crlf_cons_of_ne feed] at same ⊢
      rw [lengthThrough, lengthThrough, same]
      split
      · rename_i closes
        have noFeed : '\n' ∉ closer :=
          fun member => absurd (List.all_eq_true.mp unbroken '\n' member) Bool.false_ne_true
        obtain ⟨more, whole⟩ := List.isPrefixOf_iff_prefix.mp closes
        have moved := crlfPosition_append closer more 0
        rw [whole, crlf_of_not_mem noFeed] at moved
        exact moved.symm
      · rw [ih, crlfPosition_cons_of_ne feed]

theorem exists_crlf_eq_cons (c : Char) (rest : Text) :
    ∃ d more, crlf (c :: rest) = d :: more ∧ isLineBreak d = isLineBreak c := by
  by_cases feed : c = '\n'
  · subst feed
    exact ⟨'\r', _, rfl, rfl⟩
  · exact ⟨c, _, crlf_cons_of_ne feed rest, rfl⟩

theorem ne_feed_of_not_isLineBreak {c : Char} (unbroken : isLineBreak c = false) : c ≠ '\n' := by
  rintro rfl
  exact absurd unbroken nofun

end Text

namespace Region

open Text (crlf crlfPosition crlf_cons_of_ne crlfPosition_cons_of_ne ne_feed_of_not_isLineBreak)

/-- A literal has no characters before a line break. -/
theorem quotedLength_of_break {quote c : Char} (proper : Text.isLineBreak quote = false)
    (breaks : Text.isLineBreak c = true) (rest : Text) : quotedLength quote (c :: rest) = 0 := by
  have notQuote : c ≠ quote := by
    rintro rfl
    exact absurd (breaks.symm.trans proper) nofun
  have notSlash : c ≠ '\\' := by
    rintro rfl
    exact absurd breaks nofun
  cases rest with
  | nil => rw [quotedLength, if_neg notQuote, if_pos breaks]
  | cons d rest =>
    rw [quotedLength, if_neg (fun escapes => notSlash escapes.1), if_neg notQuote, if_pos breaks]

/-- A literal stays as it is. -/
theorem quotedLength_crlf {quote : Char} (proper : Text.isLineBreak quote = false) (text : Text) :
    quotedLength quote (crlf text) = crlfPosition text (quotedLength quote text) := by
  fun_induction quotedLength quote text with
  | case1 => rfl
  | case2 =>
    have single := ne_feed_of_not_isLineBreak proper
    rw [crlf_cons_of_ne single, crlfPosition_cons_of_ne single]
    simp [quotedLength]
  | case3 c open' breaks =>
    obtain ⟨d, more, same, breaks'⟩ := Text.exists_crlf_eq_cons c []
    rw [same, quotedLength_of_break proper (breaks'.trans breaks)]
    rfl
  | case4 c open' unbroken =>
    have single := ne_feed_of_not_isLineBreak (Bool.eq_false_iff.mpr unbroken)
    rw [crlf_cons_of_ne single, crlfPosition_cons_of_ne single]
    simp [quotedLength, open', unbroken]
  | case5 c d rest escapes ih =>
    obtain ⟨rfl, unbroken⟩ := escapes
    have single := ne_feed_of_not_isLineBreak unbroken
    rw [crlf_cons_of_ne (by decide), crlf_cons_of_ne single, quotedLength, if_pos ⟨rfl, unbroken⟩, ih,
      crlfPosition_cons_of_ne (by decide), crlfPosition_cons_of_ne single]
  | case6 d rest free =>
    have single := ne_feed_of_not_isLineBreak proper
    obtain ⟨e, more, same, breaks⟩ := Text.exists_crlf_eq_cons d rest
    rw [← breaks] at free
    rw [crlf_cons_of_ne single, same, quotedLength, if_neg free, if_pos rfl,
      crlfPosition_cons_of_ne single]
    rfl
  | case7 c d rest free open' breaks =>
    obtain ⟨e, more, same, breaks'⟩ := Text.exists_crlf_eq_cons c (d :: rest)
    rw [same, quotedLength_of_break proper (breaks'.trans breaks)]
    rfl
  | case8 c d rest free open' unbroken ih =>
    have single := ne_feed_of_not_isLineBreak (Bool.eq_false_iff.mpr unbroken)
    obtain ⟨e, more, same, breaks⟩ := Text.exists_crlf_eq_cons d rest
    rw [← breaks] at free
    rw [crlf_cons_of_ne single, crlfPosition_cons_of_ne single, ← ih, same, quotedLength, if_neg free,
      if_neg open', if_neg unbroken]

/-- The body of a region is moved at its end only by what it is made of. -/
theorem bodyLength_crlf (kind : RegionKind) (body : Text) :
    kind.bodyLength (crlf body) = crlfPosition body (kind.bodyLength body) := by
  cases kind with
  | lineComment => exact Text.length_firstLine_crlf body
  | blockComment => exact Text.lengthThrough_crlf (by decide) (by decide) body
  | string => exact quotedLength_crlf (by decide) body
  | rawString => exact Text.lengthThrough_crlf (by decide) (by decide) body
  | character => exact quotedLength_crlf (by decide) body

theorem all_not_isLineBreak_opener (kind : RegionKind) :
    kind.opener.all (!Text.isLineBreak ·) = true := by
  cases kind <;> decide

/-- The same regions open, with the line feeds in them counted twice. -/
theorem opening?_crlf (text : Text) :
    opening? (crlf text) = (opening? text).map fun (kind, length) => (kind, crlfPosition text length) := by
  cases opens : opening? text with
  | none =>
    rw [opening?_eq_none_iff] at opens
    rw [Option.map_none, opening?_eq_none_iff]
    intro kind
    rw [Text.isPrefixOf_crlf (all_not_isLineBreak_opener kind), opens kind]
  | some found =>
    obtain ⟨kind, length⟩ := found
    obtain ⟨body, rfl, single, rfl⟩ := opening?_eq_some_iff.mp opens
    have opener : crlf kind.opener = kind.opener := by
      cases kind <;> rfl
    rw [Option.map_some, opening?_eq_some_iff]
    refine ⟨crlf body, by rw [Text.crlf_append, opener], fun string => ?_, ?_⟩
    · rw [Text.isPrefixOf_crlf (by decide), single string]
    · rw [Text.crlfPosition_append, opener, bodyLength_crlf]

def relocate (place : Nat → Nat) (region : Region) : Region :=
  { region with start := place region.start, stop := place region.stop }

/-- What stands after a part of a text has its regions where the positions of that part put them. -/
theorem scanFrom_crlf (before after : Text) :
    scanFrom 0 (crlf before).length (crlf after) =
      (scanFrom 0 before.length after).map (relocate (crlfPosition (before ++ after))) := by
  induction after using scanInduction generalizing before with
  | nil => rfl
  | plain c rest opens ih =>
    have later := ih (before ++ [c])
    rw [List.append_assoc, List.singleton_append, List.length_append, List.length_singleton,
      Text.crlf_append, List.length_append] at later
    have opens' := opening?_crlf (c :: rest)
    rw [opens, Option.map_none] at opens'
    rw [scanFrom_of_opening?_eq_none _ opens, ← later]
    by_cases feed : c = '\n'
    · subst feed
      rw [Text.crlf_feed] at opens' ⊢
      rw [scanFrom_of_opening?_eq_none _ opens', scanFrom_of_opening?_eq_none _ (opening?_feed _)]
      rfl
    · rw [crlf_cons_of_ne feed] at opens' ⊢
      rw [scanFrom_of_opening?_eq_none _ opens', crlf_cons_of_ne feed]
      rfl
  | region text kind length opens ih =>
    obtain ⟨-, within⟩ := opening?_bounds opens
    have opens' := opening?_crlf text
    rw [opens, Option.map_some] at opens'
    have later := ih (before ++ text.take length)
    rw [List.append_assoc, List.take_append_drop, List.length_append, List.length_take_of_le within,
      Text.crlf_append, List.length_append, Text.length_crlf_take within] at later
    have start := Text.crlfPosition_append before text 0
    have stop := Text.crlfPosition_append before text length
    rw [scanFrom_of_opening?_eq_some _ opens, scanFrom_of_opening?_eq_some _ opens',
      Text.drop_crlfPosition within, later, List.map_cons, relocate, stop]
    dsimp only
    rw [← Nat.add_zero before.length, start]
    rfl

/-- A carriage return before each line feed moves the regions of a text and changes nothing else. -/
theorem scan_crlf (text : Text) :
    scan (crlf text) = (scan text).map (relocate (crlfPosition text)) :=
  scanFrom_crlf [] text

example : scan (Text.crlf ['"', '\\', '\n', '/', '/', '\n']) = [⟨0, 2, .string⟩, ⟨4, 6, .lineComment⟩] := by
  decide

theorem holds_relocate {place : Nat → Nat} (ordered : StrictMono place) (region : Region)
    (position : Nat) : (region.relocate place).holds (place position) = region.holds position := by
  rw [Bool.eq_iff_iff, holds_iff, holds_iff, relocate]
  simp only [Int.ofNat_le, Int.ofNat_lt, ordered.le_iff_le, ordered.lt_iff_lt]

end Region

end KotlinHighlight
