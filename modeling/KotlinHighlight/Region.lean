import KotlinHighlight.Text.Basic

/-! # Regions

The comments and the literals of a text, told apart in one pass from left to right. A region ends
where its own rule says, whatever stands inside it. A block comment or a raw string that is never
closed runs to the end of the text, and any other region stops before a line break.
-/

namespace KotlinHighlight

inductive RegionKind where
  | lineComment
  | blockComment
  | string
  | rawString
  | character
deriving DecidableEq, Repr

namespace RegionKind

def name : RegionKind → String
  | lineComment => "line_comment"
  | blockComment => "block_comment"
  | string => "string"
  | rawString => "raw_string"
  | character => "char"

/-- Whether the region is a comment. The others are literals. -/
def isComment : RegionKind → Bool
  | lineComment | blockComment => true
  | string | rawString | character => false

end RegionKind

/-- A comment or a literal from `start` up to, but without, `stop`. -/
structure Region where
  start : Nat
  stop : Nat
  kind : RegionKind
deriving DecidableEq, Repr

namespace Region

def rawQuotes : Text :=
  ['"', '"', '"']

def commentCloser : Text :=
  ['*', '/']

/-- The length of a quoted literal after its opening quote: through the next same quote that no
backslash escapes, or up to a line break. A backslash escapes the character after it, unless that
is a line break. -/
def quotedLength (quote : Char) : Text → Nat
  | [] => 0
  | [c] => if c = quote then 1 else if Text.isLineBreak c then 0 else 1
  | c :: d :: rest =>
    if c = '\\' ∧ Text.isLineBreak d = false then quotedLength quote rest + 2
    else if c = quote then 1
    else if Text.isLineBreak c then 0
    else quotedLength quote (d :: rest) + 1

/-- The kind and the length of the region that opens at the start of a text, if one does. -/
def opening? : Text → Option (RegionKind × Nat)
  | '/' :: '/' :: rest => some (.lineComment, 2 + (Text.firstLine rest).length)
  | '/' :: '*' :: rest => some (.blockComment, 2 + Text.lengthThrough commentCloser rest)
  | '"' :: '"' :: '"' :: rest => some (.rawString, 3 + Text.lengthThrough rawQuotes rest)
  | '"' :: rest => some (.string, 1 + quotedLength '"' rest)
  | '\'' :: rest => some (.character, 1 + quotedLength '\'' rest)
  | _ => none

/-- The regions of a text that stands at `position`, after its next `skip` characters. -/
def scanFrom (skip position : Nat) : Text → List Region
  | [] => []
  | c :: rest =>
    match skip with
    | skip + 1 => scanFrom skip (position + 1) rest
    | 0 =>
      match opening? (c :: rest) with
      | none => scanFrom 0 (position + 1) rest
      | some (kind, length) =>
        ⟨position, position + length, kind⟩ :: scanFrom (length - 1) (position + 1) rest

/-- The regions of a text, from left to right. -/
def scan (text : Text) : List Region :=
  scanFrom 0 0 text

/-- Skipping is going on with a later part of the text. -/
theorem scanFrom_skip (skip position : Nat) (text : Text) :
    scanFrom skip position text = scanFrom 0 (position + skip) (text.drop skip) := by
  induction text generalizing skip position with
  | nil => simp [scanFrom]
  | cons c rest ih =>
    cases skip with
    | zero => rfl
    | succ skip =>
      rw [scanFrom, ih, List.drop_succ_cons, Nat.add_right_comm, Nat.add_assoc]

theorem quotedLength_le_length (quote : Char) (text : Text) :
    quotedLength quote text ≤ text.length := by
  fun_induction quotedLength quote text <;> simp_all

theorem opening?_bounds {text : Text} {kind : RegionKind} {length : Nat}
    (opens : opening? text = some (kind, length)) : 0 < length ∧ length ≤ text.length := by
  unfold opening? at opens
  split at opens
  · rename_i rest
    have within := (List.takeWhile_prefix (l := rest) (!Text.isLineBreak ·)).length_le
    simp only [Option.some.injEq, Prod.mk.injEq, Text.firstLine] at opens
    simp only [List.length_cons]
    omega
  · rename_i rest
    have within := Text.lengthThrough_le_length commentCloser rest
    simp only [Option.some.injEq, Prod.mk.injEq] at opens
    simp only [List.length_cons]
    omega
  · rename_i rest
    have within := Text.lengthThrough_le_length rawQuotes rest
    simp only [Option.some.injEq, Prod.mk.injEq] at opens
    simp only [List.length_cons]
    omega
  · rename_i rest _
    have within := quotedLength_le_length '"' rest
    simp only [Option.some.injEq, Prod.mk.injEq] at opens
    simp only [List.length_cons]
    omega
  · rename_i rest
    have within := quotedLength_le_length '\'' rest
    simp only [Option.some.injEq, Prod.mk.injEq] at opens
    simp only [List.length_cons]
    omega
  · simp at opens

theorem scanFrom_of_opening?_eq_none {c : Char} {rest : Text} (position : Nat)
    (plain : opening? (c :: rest) = none) :
    scanFrom 0 position (c :: rest) = scanFrom 0 (position + 1) rest := by
  simp [scanFrom, plain]

theorem scanFrom_of_opening?_eq_some {text : Text} {kind : RegionKind} {length : Nat}
    (position : Nat) (opens : opening? text = some (kind, length)) :
    scanFrom 0 position text =
      ⟨position, position + length, kind⟩ ::
        scanFrom 0 (position + length) (text.drop length) := by
  obtain ⟨positive, -⟩ := opening?_bounds opens
  cases text with
  | nil => simp [opening?] at opens
  | cons c rest =>
    obtain ⟨more, rfl⟩ : ∃ more, length = more + 1 := ⟨length - 1, by omega⟩
    rw [scanFrom, opens]
    simp only [Nat.add_sub_cancel, List.drop_succ_cons]
    rw [scanFrom_skip more, Nat.add_assoc, Nat.add_comm 1 more]

end Region

end KotlinHighlight
