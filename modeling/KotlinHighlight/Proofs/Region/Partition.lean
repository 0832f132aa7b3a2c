import KotlinHighlight.Proofs.Region

/-! # Scans as partitions

What a list of regions of a text has to be like is said here without a scan: where a region of each
kind starts and ends (`Region.IsLexeme`), and that regions follow each other and leave nothing outside
that opens one (`Region.Partitions`). The regions of a scan are like this, and no other list is
(`partitions_iff_eq_scan`).
-/

namespace KotlinHighlight

namespace Text

/-- Whether the first `count` places of a text do not stop it, and the next one does or is its end. -/
structure RunsUpTo (stops : Nat → Prop) (text : Text) (count : Nat) : Prop where
  before : ∀ place < count, ¬stops place
  ended : stops count ∨ count = text.length

def breaksAt (text : Text) (place : Nat) : Bool :=
  text[place]?.any isLineBreak

def standsAt (part text : Text) (place : Nat) : Bool :=
  part.isPrefixOf (text.drop place)

/-- Whether the character at a place of a literal is escaped: the one before it is a backslash that is
not escaped itself, and it is no line break. -/
def escapedAt (text : Text) : Nat → Bool
  | 0 => false
  | place + 1 =>
    text[place]? == some '\\' && !escapedAt text place && text[place + 1]?.any (!isLineBreak ·)

/-- Whether a quote that is not escaped stands at a place of a literal. -/
def closesAt (quote : Char) (text : Text) (place : Nat) : Bool :=
  text[place]? == some quote && !escapedAt text place

/-- Whether a part of a text ends right after the first closer, or with the text if there is none. -/
def EndsAfter (closer text : Text) (size : Nat) : Prop :=
  ∃ count, RunsUpTo (standsAt closer text · = true) text count ∧
    size = if standsAt closer text count then count + closer.length else count

/-- Whether a part of a text ends right after the first quote that is not escaped, or right before a
line break if that comes earlier, or with the text if there is neither. -/
def EndsLiteral (quote : Char) (text : Text) (size : Nat) : Prop :=
  ∃ count, RunsUpTo (fun place => closesAt quote text place = true ∨ breaksAt text place = true)
      text count ∧
    size = if closesAt quote text count then count + 1 else count

section RunsUpTo

variable {stops : Nat → Prop} {text : Text}

theorem RunsUpTo.unique (inside : ∀ place, stops place → place < text.length) {one other : Nat}
    (first : RunsUpTo stops text one) (second : RunsUpTo stops text other) : one = other := by
  rcases Nat.lt_trichotomy one other with less | same | more
  · rcases first.ended with stopped | whole
    · exact absurd stopped (second.before one less)
    · rcases second.ended with stopped | whole'
      · exact absurd (inside other stopped) (by omega)
      · exact whole.trans whole'.symm
  · exact same
  · rcases second.ended with stopped | whole
    · exact absurd stopped (first.before other more)
    · rcases first.ended with stopped | whole'
      · exact absurd (inside one stopped) (by omega)
      · exact whole'.trans whole.symm

theorem RunsUpTo.zero (ended : stops 0 ∨ 0 = text.length) : RunsUpTo stops text 0 where
  before place within := absurd within (Nat.not_lt_zero place)
  ended := ended

/-- A place that does not stop a text comes before the places of the rest. -/
theorem RunsUpTo.cons {c : Char} {count : Nat} (first : ¬stops 0)
    (later : RunsUpTo (fun place => stops (place + 1)) text count) :
    RunsUpTo stops (c :: text) (count + 1) where
  before place within := by
    cases place with
    | zero => exact first
    | succ place => exact later.before place (by omega)
  ended := later.ended.imp id fun whole => by rw [whole, List.length_cons]

theorem RunsUpTo.congr {stops' : Nat → Prop} {count : Nat}
    (same : ∀ place, stops place ↔ stops' place) (runs : RunsUpTo stops text count) :
    RunsUpTo stops' text count where
  before place within := mt (same place).mpr (runs.before place within)
  ended := runs.ended.imp (same count).mp id

end RunsUpTo

theorem lt_length_of_breaksAt {text : Text} {place : Nat} (breaks : breaksAt text place = true) :
    place < text.length := by
  by_contra outside
  rw [breaksAt, List.getElem?_eq_none (by omega)] at breaks
  exact absurd breaks nofun

theorem lt_length_of_standsAt {part text : Text} (nonempty : part ≠ []) {place : Nat}
    (stands : standsAt part text place = true) : place < text.length := by
  by_contra outside
  rw [standsAt, List.drop_eq_nil_of_le (by omega), List.isPrefixOf_iff_prefix,
    List.prefix_nil] at stands
  exact nonempty stands

theorem lt_length_of_closesAt {quote : Char} {text : Text} {place : Nat}
    (closes : closesAt quote text place = true) : place < text.length := by
  rw [closesAt, Bool.and_eq_true, beq_iff_eq] at closes
  exact (List.getElem?_eq_some_iff.mp closes.1).1

/-- The first line runs up to the first line break. -/
theorem runsUpTo_firstLine (text : Text) :
    RunsUpTo (breaksAt text · = true) text (firstLine text).length := by
  induction text with
  | nil => exact .zero (.inr rfl)
  | cons c rest ih =>
    cases breaks : isLineBreak c with
    | true =>
      rw [firstLine, List.takeWhile_cons_of_neg (by simp [breaks])]
      exact .zero (.inl breaks)
    | false =>
      rw [firstLine, List.takeWhile_cons_of_pos (by simp [breaks])]
      exact .cons (by simp [breaksAt, breaks]) ih

theorem endsAfter_lengthThrough (closer text : Text) :
    EndsAfter closer text (lengthThrough closer text) := by
  induction text with
  | nil =>
    refine ⟨0, .zero (.inr rfl), ?_⟩
    cases closer <;> rfl
  | cons c rest ih =>
    rw [lengthThrough]
    by_cases closes : closer.isPrefixOf (c :: rest) = true
    · have here : standsAt closer (c :: rest) 0 = true := closes
      exact ⟨0, .zero (.inl here), by rw [if_pos closes, if_pos here, Nat.zero_add]⟩
    · obtain ⟨count, runs, size⟩ := ih
      refine ⟨count + 1, .cons closes runs, ?_⟩
      have later : standsAt closer (c :: rest) (count + 1) = standsAt closer rest count := rfl
      rw [if_neg closes, later, size]
      split <;> omega

/-- A part ends in only one place. -/
theorem EndsAfter.unique {closer text : Text} (nonempty : closer ≠ []) {one other : Nat}
    (first : EndsAfter closer text one) (second : EndsAfter closer text other) : one = other := by
  obtain ⟨count, runs, rfl⟩ := first
  obtain ⟨count', runs', rfl⟩ := second
  rw [runs.unique (fun _ => lt_length_of_standsAt nonempty) runs']

section Literal

variable {quote c d : Char} {rest : Text}

/-- After a character that escapes nothing, the rest is read as if it stood alone. -/
theorem escapedAt_cons_succ (free : escapedAt (c :: rest) 1 = false) (place : Nat) :
    escapedAt (c :: rest) (place + 1) = escapedAt rest place := by
  induction place with
  | zero => exact free
  | succ place ih =>
    rw [escapedAt, ih]
    rfl

/-- After a character that is escaped, the rest is read as if it stood alone. -/
theorem escapedAt_cons_cons_add_two (escaped : escapedAt (c :: d :: rest) 1 = true) (place : Nat) :
    escapedAt (c :: d :: rest) (place + 2) = escapedAt rest place := by
  induction place with
  | zero =>
    have follows : escapedAt (c :: d :: rest) (0 + 2) =
      ((c :: d :: rest)[1]? == some '\\' && !escapedAt (c :: d :: rest) 1 &&
        (c :: d :: rest)[2]?.any (!isLineBreak ·)) := rfl
    rw [follows, escaped, Bool.not_true, Bool.and_false, Bool.false_and]
    rfl
  | succ place ih =>
    rw [escapedAt, ih]
    rfl

theorem escapedAt_one : escapedAt (c :: d :: rest) 1 = (c == '\\' && !isLineBreak d) := by
  simp [escapedAt]

theorem EndsLiteral.cons {size : Nat} (open' : c ≠ quote) (unbroken : isLineBreak c = false)
    (free : escapedAt (c :: rest) 1 = false) (ends : EndsLiteral quote rest size) :
    EndsLiteral quote (c :: rest) (size + 1) := by
  have later : ∀ place, closesAt quote (c :: rest) (place + 1) = closesAt quote rest place := by
    intro place
    rw [closesAt, escapedAt_cons_succ free]
    rfl
  obtain ⟨count, runs, rfl⟩ := ends
  refine ⟨count + 1, .cons ?_ (runs.congr fun place => ?_), ?_⟩
  · simp [closesAt, breaksAt, open', unbroken]
  · rw [later]
    rfl
  · rw [later]
    split <;> rfl

theorem EndsLiteral.escaped {size : Nat} (proper : quote ≠ '\\') (unbroken : isLineBreak d = false)
    (ends : EndsLiteral quote rest size) :
    EndsLiteral quote ('\\' :: d :: rest) (size + 2) := by
  have escaped : escapedAt ('\\' :: d :: rest) 1 = true := by simp [escapedAt_one, unbroken]
  have later : ∀ place,
      closesAt quote ('\\' :: d :: rest) (place + 2) = closesAt quote rest place := by
    intro place
    rw [closesAt, escapedAt_cons_cons_add_two escaped]
    rfl
  obtain ⟨count, runs, rfl⟩ := ends
  refine ⟨count + 2, .cons ?_ (.cons ?_ (runs.congr fun place => ?_)), ?_⟩
  · simp [closesAt, breaksAt, proper.symm, isLineBreak]
  · simp [closesAt, breaksAt, escaped, unbroken]
  · rw [later]
    rfl
  · rw [later]
    split <;> rfl

end Literal

theorem EndsLiteral.unique {quote : Char} {text : Text} {one other : Nat}
    (first : EndsLiteral quote text one) (second : EndsLiteral quote text other) : one = other := by
  obtain ⟨count, runs, rfl⟩ := first
  obtain ⟨count', runs', rfl⟩ := second
  have inside : ∀ place, closesAt quote text place = true ∨ breaksAt text place = true →
      place < text.length :=
    fun place stopped => stopped.elim lt_length_of_closesAt lt_length_of_breaksAt
  rw [runs.unique inside runs']

theorem endsLiteral_nil (quote : Char) : EndsLiteral quote [] 0 :=
  ⟨0, .zero (.inr rfl), rfl⟩

theorem endsLiteral_quote (quote : Char) (rest : Text) : EndsLiteral quote (quote :: rest) 1 := by
  have closes : closesAt quote (quote :: rest) 0 = true := by simp [closesAt, escapedAt]
  exact ⟨0, .zero (.inl (.inl closes)), (if_pos closes).symm⟩

theorem endsLiteral_break {quote c : Char} (open' : c ≠ quote) (breaks : isLineBreak c = true)
    (rest : Text) : EndsLiteral quote (c :: rest) 0 := by
  have unclosed : ¬closesAt quote (c :: rest) 0 = true := by simp [closesAt, open']
  exact ⟨0, .zero (.inl (.inr breaks)), (if_neg unclosed).symm⟩

end Text

namespace RegionKind

open Text (RunsUpTo EndsAfter EndsLiteral)

/-- Whether a region of a kind ends after some characters of the text that follows its opener. -/
def EndsBody : RegionKind → Text → Nat → Prop
  | lineComment, body, size => RunsUpTo (Text.breaksAt body · = true) body size
  | blockComment, body, size => EndsAfter Region.commentCloser body size
  | string, body, size => EndsLiteral '"' body size
  | rawString, body, size => EndsAfter Region.rawQuotes body size
  | character, body, size => EndsLiteral '\'' body size

end RegionKind

namespace Region

open Text (EndsLiteral)

/-- A scan ends a literal where it ends. -/
theorem endsLiteral_quotedLength {quote : Char} (proper : quote ≠ '\\') (text : Text) :
    EndsLiteral quote text (quotedLength quote text) := by
  fun_induction quotedLength quote text with
  | case1 => exact Text.endsLiteral_nil quote
  | case2 => exact Text.endsLiteral_quote quote []
  | case3 c open' breaks => exact Text.endsLiteral_break open' breaks []
  | case4 c open' unbroken =>
    exact .cons open' (Bool.eq_false_iff.mpr unbroken) (by simp [Text.escapedAt])
      (Text.endsLiteral_nil quote)
  | case5 c d rest escapes ih =>
    obtain ⟨rfl, unbroken⟩ := escapes
    exact .escaped proper unbroken ih
  | case6 d rest => exact Text.endsLiteral_quote quote (d :: rest)
  | case7 c d rest _ open' breaks => exact Text.endsLiteral_break open' breaks (d :: rest)
  | case8 c d rest free open' unbroken ih =>
    refine .cons open' (Bool.eq_false_iff.mpr unbroken) ?_ ih
    rw [Text.escapedAt_one]
    simpa using free

/-- A scan ends a region where it ends. -/
theorem endsBody_iff {kind : RegionKind} {body : Text} {size : Nat} :
    kind.EndsBody body size ↔ size = kind.bodyLength body := by
  have ends : kind.EndsBody body (kind.bodyLength body) := by
    cases kind with
    | lineComment => exact Text.runsUpTo_firstLine body
    | blockComment => exact Text.endsAfter_lengthThrough _ body
    | string => exact endsLiteral_quotedLength (by decide) body
    | rawString => exact Text.endsAfter_lengthThrough _ body
    | character => exact endsLiteral_quotedLength (by decide) body
  constructor
  · intro ends'
    cases kind with
    | lineComment => exact ends'.unique (fun _ => Text.lt_length_of_breaksAt) ends
    | blockComment => exact ends'.unique (by decide) ends
    | string => exact ends'.unique ends
    | rawString => exact ends'.unique (by decide) ends
    | character => exact ends'.unique ends
  · rintro rfl
    exact ends

/-- Whether a region starts and ends in a text as its kind says. It starts with its opener, which for a
string must not be the start of a raw string. -/
def IsLexeme (text : Text) (region : Region) : Prop :=
  ∃ body size, text.drop region.start = region.kind.opener ++ body ∧
    (region.kind = .string → rawQuotes.isPrefixOf (text.drop region.start) = false) ∧
    region.kind.EndsBody body size ∧
    region.stop = region.start + (region.kind.opener.length + size)

/-- Whether regions partition a text from a position on: they are not empty and within the text, each
of them is after the one before it and starts and ends as its kind says, and no opener stands outside
of all of them. -/
structure Partitions (text : Text) (first : Nat) (regions : List Region) : Prop where
  bounds : ∀ region ∈ regions,
    first ≤ region.start ∧ region.start < region.stop ∧ region.stop ≤ text.length
  ordered : regions.Pairwise fun earlier later => earlier.stop ≤ later.start
  lexemes : ∀ region ∈ regions, region.IsLexeme text
  outside : ∀ position, first ≤ position → position < text.length →
    (∀ region ∈ regions, ¬(region.start ≤ position ∧ position < region.stop)) →
    ∀ kind : RegionKind, kind.opener.isPrefixOf (text.drop position) = false

/-- A region is as its kind says just if a scan opens it where it starts. -/
theorem isLexeme_iff {text : Text} {region : Region} (forward : region.start ≤ region.stop) :
    region.IsLexeme text ↔
      opening? (text.drop region.start) = .some (region.kind, region.stop - region.start) := by
  rw [opening?_eq_some_iff]
  constructor
  · rintro ⟨body, size, starts, single, ends, stop⟩
    refine ⟨body, starts, single, ?_⟩
    rw [stop, Nat.add_sub_cancel_left, endsBody_iff.mp ends]
  · rintro ⟨body, starts, single, length⟩
    refine ⟨body, _, starts, single, endsBody_iff.mpr rfl, ?_⟩
    rw [← length]
    omega

/-- Outside of its regions a scan opens nothing. -/
theorem opening?_of_outside (position : Nat) {text : Text} {place : Nat}
    (valid : place < text.length) (outside : ∀ region ∈ scanFrom 0 position text,
      ¬(region.start ≤ position + place ∧ position + place < region.stop)) :
    opening? (text.drop place) = none := by
  induction text using scanInduction generalizing position place with
  | nil => exact absurd valid (Nat.not_lt_zero place)
  | plain c rest opens ih =>
    rw [scanFrom_of_opening?_eq_none _ opens] at outside
    cases place with
    | zero => exact opens
    | succ place =>
      refine ih (position + 1) (Nat.lt_of_succ_lt_succ valid) ?_
      intro region member
      have free := outside region member
      omega
  | region text kind length opens ih =>
    rw [scanFrom_of_opening?_eq_some _ opens, List.forall_mem_cons] at outside
    obtain ⟨before, after⟩ := outside
    have further : length ≤ place := by
      dsimp only at before
      omega
    have whole : text.drop place = (text.drop length).drop (place - length) := by
      rw [List.drop_drop, Nat.add_sub_cancel' further]
    rw [whole]
    refine ih (position + length) ?_ ?_
    · rw [List.length_drop]
      omega
    · intro region member
      have free := after region member
      omega

/-- The regions of a scan partition its text. -/
theorem partitions_scanFrom {text : Text} {first : Nat} (within : first ≤ text.length) :
    Partitions text first (scanFrom 0 first (text.drop first)) where
  bounds region member := by
    obtain ⟨starts, forward, stops⟩ := mem_scanFrom_bounds member
    rw [List.length_drop] at stops
    exact ⟨starts, forward, by omega⟩
  ordered := pairwise_scanFrom first (text.drop first)
  lexemes region member := by
    obtain ⟨before, length, same, opens⟩ := mem_scanFrom member
    have start : region.start = first + before := by rw [same]
    have stop : region.stop = first + before + length := by rw [same]
    rw [isLexeme_iff (by omega), start, stop, Nat.add_sub_cancel_left, ← List.drop_drop]
    exact opens
  outside position reached inside free := by
    have whole : text.drop position = (text.drop first).drop (position - first) := by
      rw [List.drop_drop, Nat.add_sub_cancel' reached]
    rw [← opening?_eq_none_iff, whole]
    apply opening?_of_outside first
    · rw [List.length_drop]
      omega
    · rwa [Nat.add_sub_cancel' reached]

/-- A partition starts with what a scan opens there. -/
theorem Partitions.head_eq {text : Text} {first : Nat} {regions : List Region}
    (parts : Partitions text first regions) {kind : RegionKind} {length : Nat}
    (opens : opening? (text.drop first) = some (kind, length)) :
    ∃ later, regions = ⟨first, first + length, kind⟩ :: later := by
  obtain ⟨positive, within⟩ := opening?_bounds opens
  rw [List.length_drop] at within
  -- Something opens at `first`, so a region of the partition is there, and it comes first.
  obtain ⟨region, member, starts, -⟩ : ∃ region ∈ regions,
      region.start ≤ first ∧ first < region.stop := by
    by_contra none
    have plain := opening?_eq_none_iff.mpr (parts.outside first (Nat.le_refl first) (by omega)
      fun region member holds => none ⟨region, member, holds⟩)
    rw [plain] at opens
    exact absurd opens nofun
  have start : region.start = first := Nat.le_antisymm starts (parts.bounds region member).1
  cases regions with
  | nil => exact absurd member List.not_mem_nil
  | cons head later =>
    obtain rfl : region = head := by
      rcases List.mem_cons.mp member with same | after
      · exact same
      · have ordered := (List.pairwise_cons.mp parts.ordered).1 region after
        have bounds := parts.bounds head List.mem_cons_self
        omega
    have forward := (parts.bounds region member).2.1
    have found := (isLexeme_iff (Nat.le_of_lt forward)).mp (parts.lexemes region member)
    rw [start, opens, Option.some.injEq, Prod.mk.injEq] at found
    obtain ⟨same, size⟩ := found
    refine ⟨later, ?_⟩
    obtain ⟨start', stop, kind'⟩ := region
    dsimp only at start same size forward
    subst start same
    congr 2
    omega

/-- The only partition of a text is that of its scan. -/
theorem Partitions.eq_scanFrom {text : Text} {first : Nat} {regions : List Region}
    (parts : Partitions text first regions) : regions = scanFrom 0 first (text.drop first) := by
  generalize rest : text.drop first = remaining
  induction remaining using scanInduction generalizing first regions with
  | nil =>
    rw [scanFrom, List.eq_nil_iff_forall_not_mem]
    intro region member
    have bounds := parts.bounds region member
    have done := List.drop_eq_nil_iff.mp rest
    omega
  | plain c remaining opens ih =>
    have next : text.drop (first + 1) = remaining := by
      rw [← List.drop_drop, rest, List.drop_succ_cons, List.drop_zero]
    rw [scanFrom_of_opening?_eq_none _ opens]
    refine ih ⟨fun region member => ?_, parts.ordered, parts.lexemes, fun position reached =>
      parts.outside position (by omega)⟩ next
    obtain ⟨starts, forward, within⟩ := parts.bounds region member
    have different : region.start ≠ first := by
      intro same
      have found := (isLexeme_iff (Nat.le_of_lt forward)).mp (parts.lexemes region member)
      rw [same, rest, opens] at found
      exact absurd found.symm (Option.some_ne_none _)
    exact ⟨by omega, forward, within⟩
  | region remaining kind length opens ih =>
    obtain ⟨later, rfl⟩ := parts.head_eq (rest ▸ opens)
    have next : text.drop (first + length) = remaining.drop length := by
      rw [← List.drop_drop, rest]
    have ordered := List.pairwise_cons.mp parts.ordered
    rw [scanFrom_of_opening?_eq_some _ opens]
    congr 1
    refine ih ⟨fun region member => ?_, ordered.2, fun region member =>
      parts.lexemes region (List.mem_cons_of_mem _ member), fun position reached inside free =>
        parts.outside position (by omega) inside ?_⟩ next
    · exact ⟨ordered.1 region member, (parts.bounds region (List.mem_cons_of_mem _ member)).2⟩
    · rw [List.forall_mem_cons]
      exact ⟨by dsimp only; omega, free⟩

/-- The regions of a scan are the one and only list of regions that partitions the text. -/
theorem partitions_iff_eq_scan (text : Text) (regions : List Region) :
    Partitions text 0 regions ↔ regions = scan text := by
  constructor
  · exact fun parts => parts.eq_scanFrom
  · rintro rfl
    exact partitions_scanFrom (Nat.zero_le _)

/-- The star that opens a comment does not close it. -/
example : scan ['/', '*', '/'] = [⟨0, 3, .blockComment⟩] := by decide

end Region

end KotlinHighlight
