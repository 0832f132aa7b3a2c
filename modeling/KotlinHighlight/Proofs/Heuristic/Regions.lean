import KotlinHighlight.Heuristic
import KotlinHighlight.Proofs.Heuristic.Plain
import KotlinHighlight.Proofs.Highlight.Starts

/-! # Comments and strings of a plain text

Along the walk through a plain text the scan finds line comments and strings, and nothing else
(`kind_of_walk`). The patterns of the heuristic find the same ones (`lineComment_of_walk`,
`string_of_walk`).
-/

namespace KotlinHighlight

namespace Text

/-- Where a part stands somewhere in a text, it stands inside of it. -/
theorem occurs_iff {part text : Text} : occurs part text = true ↔ part <:+: text := by
  induction text with
  | nil => rw [occurs, List.isEmpty_iff, List.infix_nil]
  | cons c rest ih =>
    rw [occurs, Bool.or_eq_true, ih, List.infix_cons_iff, List.isPrefixOf_iff_prefix]

/-- How much of the string or the comment is left that the text before a place is the start of. -/
def Mode.left : Mode → Text → Nat
  | code, _ => 0
  | string, text => Region.quotedLength '"' text
  | comment, text => (firstLine text).length

theorem Mode.left_inside {c : Char} {rest : Text} (quote : c ≠ '"') (backslash : c ≠ '\\')
    (unbroken : isLineBreak c = false) : string.left (c :: rest) = string.left rest + 1 := by
  cases rest with
  | nil => simp [left, Region.quotedLength, quote, unbroken]
  | cons d rest => simp [left, Region.quotedLength, quote, backslash, unbroken]

theorem Mode.left_unquote (rest : Text) : string.left ('"' :: rest) = 1 := by
  cases rest with
  | nil => rfl
  | cons d rest => simp [left, Region.quotedLength]

theorem Mode.left_beyond {c : Char} {rest : Text} (unbroken : isLineBreak c = false) :
    comment.left (c :: rest) = comment.left rest + 1 := by
  simp [left, firstLine, unbroken]

theorem Mode.left_lineBreak {c : Char} {rest : Text} (breaks : isLineBreak c = true) :
    comment.left (c :: rest) = 0 := by
  simp [left, firstLine, breaks]

theorem opening?_of_isLineBreak {c : Char} {rest : Text} (breaks : isLineBreak c = true) :
    Region.opening? (c :: rest) = none := by
  rw [isLineBreak, Bool.or_eq_true, beq_iff_eq, beq_iff_eq] at breaks
  rcases breaks with rfl | rfl <;> rfl

/-- The scan goes on after the region that a text is the rest of. -/
def regionsFrom (mode : Mode) (position : Nat) (text : Text) : List Region :=
  Region.scanFrom (mode.left text) position text

theorem regionsFrom_nil (mode : Mode) (position : Nat) : regionsFrom mode position [] = [] := by
  rw [regionsFrom, Region.scanFrom]

theorem regionsFrom_code {c : Char} {rest : Text} (position : Nat)
    (plain : Region.opening? (c :: rest) = none) :
    regionsFrom .code position (c :: rest) = regionsFrom .code (position + 1) rest :=
  Region.scanFrom_of_opening?_eq_none position plain

theorem regionsFrom_quote {rest : Text} (position : Nat)
    (single : Region.rawQuotes.isPrefixOf ('"' :: rest) = false) :
    regionsFrom .code position ('"' :: rest) =
      ⟨position, position + 1 + Mode.string.left rest, .string⟩ ::
        regionsFrom .string (position + 1) rest := by
  have opens : Region.opening? ('"' :: rest) = some (.string, 1 + Region.quotedLength '"' rest) :=
    Region.opening?_eq_some_iff.mpr ⟨rest, rfl, fun _ => single, rfl⟩
  rw [regionsFrom, Mode.left, Region.scanFrom, opens, Nat.add_assoc]
  dsimp only
  rw [Nat.add_sub_cancel_left]
  rfl

theorem regionsFrom_inside {c : Char} {rest : Text} (position : Nat) (quote : c ≠ '"')
    (backslash : c ≠ '\\') (unbroken : isLineBreak c = false) :
    regionsFrom .string position (c :: rest) = regionsFrom .string (position + 1) rest := by
  rw [regionsFrom, Mode.left_inside quote backslash unbroken]
  rfl

theorem regionsFrom_unquote (position : Nat) (rest : Text) :
    regionsFrom .string position ('"' :: rest) = regionsFrom .code (position + 1) rest := by
  rw [regionsFrom, Mode.left_unquote]
  rfl

theorem regionsFrom_slashes (position : Nat) (rest : Text) :
    regionsFrom .code position ('/' :: '/' :: rest) =
      ⟨position, position + 2 + Mode.comment.left rest, .lineComment⟩ ::
        regionsFrom .comment (position + 2) rest := by
  have opens : Region.opening? ('/' :: '/' :: rest) =
      some (.lineComment, 2 + (firstLine rest).length) := rfl
  have skipped : 2 + (firstLine rest).length - 1 = (firstLine rest).length + 1 := by omega
  rw [regionsFrom, Mode.left, Region.scanFrom, opens, Nat.add_assoc]
  dsimp only
  rw [skipped]
  rfl

theorem regionsFrom_beyond {c : Char} {rest : Text} (position : Nat)
    (unbroken : isLineBreak c = false) :
    regionsFrom .comment position (c :: rest) = regionsFrom .comment (position + 1) rest := by
  rw [regionsFrom, Mode.left_beyond unbroken]
  rfl

theorem regionsFrom_lineBreak {c : Char} {rest : Text} (position : Nat)
    (breaks : isLineBreak c = true) :
    regionsFrom .comment position (c :: rest) = regionsFrom .code (position + 1) rest := by
  rw [regionsFrom, Mode.left_lineBreak breaks]
  exact regionsFrom_code position (opening?_of_isLineBreak breaks)

/-- The regions that are found along a walk are strings and line comments. -/
theorem kind_of_walk {mode : Mode} {text : Text} (walk : Walk mode text) (position : Nat) :
    ∀ region ∈ regionsFrom mode position text,
      region.kind = .string ∨ region.kind = .lineComment := by
  induction walk generalizing position with
  | done _ =>
    rw [regionsFrom_nil]
    exact nofun
  | code plain _ _ _ ih =>
    rw [regionsFrom_code position plain]
    exact ih (position + 1)
  | quote single _ ih =>
    rw [regionsFrom_quote position single]
    exact List.forall_mem_cons.mpr ⟨.inl rfl, ih (position + 1)⟩
  | inside quote backslash unbroken _ _ ih =>
    rw [regionsFrom_inside position quote backslash unbroken]
    exact ih (position + 1)
  | unquote _ ih =>
    rw [regionsFrom_unquote]
    exact ih (position + 1)
  | slashes _ ih =>
    rw [regionsFrom_slashes]
    exact List.forall_mem_cons.mpr ⟨.inr rfl, ih (position + 2)⟩
  | beyond _ unbroken _ ih =>
    rw [regionsFrom_beyond position unbroken]
    exact ih (position + 1)
  | lineBreak breaks _ ih =>
    rw [regionsFrom_lineBreak position breaks]
    exact ih (position + 1)

end Text

namespace Pattern

open Text (Mode Walk)

/-- A pattern has no match where the character that it starts with does not stand. -/
theorem matchEnd?_of_opens {accepts : Char → Bool} {pattern : Pattern} (opens : pattern.Opens accepts)
    {position : Nat} {before : Option Char} {c : Char} {rest : Text} (refused : accepts c = false) :
    pattern.matchEnd? ⟨position, before, c :: rest⟩ = none := by
  rw [matchEnd?_eq_none_iff]
  intro last member
  exact Bool.false_ne_true (refused.symm.trans (opens _ last member))

/-- A pattern has no match where the text that it starts with does not stand. -/
theorem matchEnd?_of_literal {opener : Text} (second : Pattern) {cursor : Cursor}
    (absent : opener.isPrefixOf cursor.ahead = false) :
    (both (literal opener) second).matchEnd? cursor = none := by
  rw [matchEnd?_eq_none_iff]
  intro last member
  obtain ⟨middle, first, -⟩ := mem_ends_both.mp member
  have opens : opener <+: cursor.ahead := ⟨middle.ahead, (reads_literal first).ahead.symm⟩
  rw [List.isPrefixOf_iff_prefix.mpr opens] at absent
  exact Bool.false_ne_true absent.symm

/-- What a pattern finds starts with the text that the pattern starts with. -/
theorem opener_of_mem_stretches {opener : Text} {second : Pattern} {text : Text} {stretch : Stretch}
    (member : stretch ∈ (both (literal opener) second).stretches text) :
    opener <+: text.drop stretch.start := by
  obtain ⟨-, -, last, found, -⟩ := mem_stretches member
  obtain ⟨middle, first, -⟩ := mem_ends_both.mp found
  exact ⟨middle.ahead, (reads_literal first).ahead.symm⟩

theorem stretches_of_not_occurs {opener : Text} (second : Pattern) {text : Text}
    (absent : Text.occurs opener text = false) :
    (both (literal opener) second).stretches text = [] := by
  rw [List.eq_nil_iff_forall_not_mem]
  intro stretch member
  have opens := opener_of_mem_stretches member
  rw [Text.occurs_iff.mpr (opens.isInfix.trans (List.drop_suffix _ text).isInfix)] at absent
  exact Bool.false_ne_true absent.symm

/-- Where a search finds nothing it goes on with the next character. -/
theorem stretchesFrom_of_none {pattern : Pattern} {position : Nat} {before : Option Char} {c : Char}
    {rest : Text} (missed : pattern.matchEnd? ⟨position, before, c :: rest⟩ = none) :
    pattern.stretchesFrom 0 position before (c :: rest) =
      pattern.stretchesFrom 0 (position + 1) (some c) rest := by
  rw [stretchesFrom, missed]

theorem stretchesFrom_of_some {pattern : Pattern} {position : Nat} {before : Option Char} {c : Char}
    {rest : Text} {length : Nat}
    (found : pattern.matchEnd? ⟨position, before, c :: rest⟩ = some (position + 1 + length)) :
    pattern.stretchesFrom 0 position before (c :: rest) =
      ⟨position, position + 1 + length⟩ ::
        pattern.stretchesFrom length (position + 1) (some c) rest := by
  rw [stretchesFrom, found]
  dsimp only
  rw [if_pos (by omega), Nat.add_sub_cancel_left]

/-- As many characters of a class as there are come first. -/
theorem matchEnd?_many_one (accepts : Char → Bool) (position : Nat) (before : Option Char)
    (ahead : Text) : (many (one accepts)).matchEnd? ⟨position, before, ahead⟩ =
      some (position + (ahead.takeWhile accepts).length) := by
  rw [matchEnd?, ends]
  induction ahead generalizing position before with
  | nil => rfl
  | cons c rest ih =>
    rw [List.length_cons, manySteps, ends]
    by_cases accepted : accepts c = true
    · rw [if_pos accepted, List.foldr_cons, List.foldr_nil, manySteps_eq_append, List.head?_append,
        List.takeWhile_cons_of_pos accepted, List.length_cons]
      obtain ⟨last, first, stop⟩ := Option.map_eq_some_iff.mp (ih (position + 1) (some c))
      rw [first, Option.some_or, Option.map_some, stop]
      congr 1
      omega
    · rw [if_neg accepted, List.takeWhile_cons_of_neg accepted]
      rfl

end Pattern

namespace Heuristic

open Pattern
open Text (Mode Walk regionsFrom)

theorem matchEnd?_lineComment (position : Nat) (before : Option Char) (rest : Text) :
    lineComment.matchEnd? ⟨position, before, '/' :: '/' :: rest⟩ =
      some (position + 2 + Mode.comment.left rest) := by
  have opener : (literal ['/', '/']).ends ⟨position, before, '/' :: '/' :: rest⟩ =
      [⟨position + 2, some '/', rest⟩] := by
    simp [literal, char, ends]
  have body := matchEnd?_many_one (!Text.isLineBreak ·) (position + 2) (some '/') rest
  rw [matchEnd?] at body
  rw [lineComment, matchEnd?, ends, opener, List.flatMap_singleton, body]
  rfl

/-- What a string is made of before its second quote. -/
def stringBody : Pattern :=
  many (either (one fun c => c != '"' && c != '\\') (both (char '\\') (one (· != '\n'))))

/-- Along the walk through a string the pattern for strings goes on to the second quote. -/
theorem matchEnd?_stringBody {text : Text} (walk : Walk .string text) (position : Nat)
    (before : Option Char) : (both stringBody (char '"')).matchEnd? ⟨position, before, text⟩ =
      some (position + Mode.string.left text) := by
  rw [matchEnd?, ends, stringBody, ends]
  induction text generalizing position before with
  | nil =>
    cases walk with
    | done outside => exact absurd rfl outside
  | cons c rest ih =>
    rw [List.length_cons, manySteps]
    cases walk with
    | inside quote backslash unbroken _ walk =>
      have step : (either (one fun c => c != '"' && c != '\\')
          (both (char '\\') (one (· != '\n')))).ends ⟨position, before, c :: rest⟩ =
            [⟨position + 1, some c, rest⟩] := by
        simp [char, ends, quote, backslash]
      obtain ⟨last, first, stop⟩ := Option.map_eq_some_iff.mp (ih walk (position + 1) (some c))
      rw [step, List.foldr_cons, List.foldr_nil, manySteps_eq_append, List.flatMap_append,
        List.head?_append, first, Option.some_or, Option.map_some, stop,
        Mode.left_inside quote backslash unbroken]
      congr 1
      omega
    | unquote walk =>
      have step : (either (one fun c => c != '"' && c != '\\')
          (both (char '\\') (one (· != '\n')))).ends ⟨position, before, '"' :: rest⟩ = [] := by
        simp [char, ends]
      rw [step, Mode.left_unquote]
      rfl

theorem matchEnd?_string {rest : Text} (walk : Walk .string rest) (position : Nat)
    (before : Option Char) : string.matchEnd? ⟨position, before, '"' :: rest⟩ =
      some (position + 1 + Mode.string.left rest) := by
  have opener : (char '"').ends ⟨position, before, '"' :: rest⟩ =
      [⟨position + 1, some '"', rest⟩] := by
    simp [char, ends]
  have body := matchEnd?_stringBody walk (position + 1) (some '"')
  rw [matchEnd?] at body
  change Option.map _ (((char '"').ends _).flatMap _).head? = _
  rw [opener, List.flatMap_singleton]
  exact body

theorem opens_string : string.Opens ('"' == ·) :=
  (opens_char (beq_self_eq_true '"')).both _

def stretchOf (region : Region) : Stretch :=
  ⟨region.start, region.stop⟩

/-- How much a search has to skip of a text in a mode, if it was in this mode that it found something
last. -/
def leftIn (found mode : Mode) (text : Text) : Nat :=
  if mode = found then mode.left text else 0

section Found

variable {position : Nat} {before : Option Char} {c : Char} {rest : Text}

theorem lineComment_unopened (absent : Text.slashes.isPrefixOf (c :: rest) = false) :
    lineComment.stretchesFrom 0 position before (c :: rest) =
      lineComment.stretchesFrom 0 (position + 1) (some c) rest :=
  stretchesFrom_of_none (matchEnd?_of_literal _ absent)

theorem string_unopened (noQuote : c ≠ '"') :
    string.stretchesFrom 0 position before (c :: rest) =
      string.stretchesFrom 0 (position + 1) (some c) rest :=
  stretchesFrom_of_none
    (matchEnd?_of_opens opens_string (beq_eq_false_iff_ne.mpr (Ne.symm noQuote)))

end Found

/-- The line comments that are found by their pattern are those of the scan. -/
theorem lineComment_of_walk {mode : Mode} {text : Text} (walk : Walk mode text) (position : Nat)
    (before : Option Char) :
    lineComment.stretchesFrom (leftIn .comment mode text) position before text =
      ((regionsFrom mode position text).filter (·.kind == .lineComment)).map stretchOf := by
  induction walk generalizing position before with
  | done _ =>
    rw [Text.regionsFrom_nil, stretchesFrom]
    rfl
  | code plain _ absent _ ih =>
    rw [Text.regionsFrom_code position plain]
    exact (lineComment_unopened absent).trans (ih _ _)
  | quote single _ ih =>
    rw [Text.regionsFrom_quote position single]
    exact (lineComment_unopened rfl).trans (ih _ _)
  | inside quote backslash unbroken absent _ ih =>
    rw [Text.regionsFrom_inside position quote backslash unbroken]
    exact (lineComment_unopened absent).trans (ih _ _)
  | unquote _ ih =>
    rw [Text.regionsFrom_unquote]
    exact (lineComment_unopened rfl).trans (ih _ _)
  | @slashes rest _ ih =>
    have found := matchEnd?_lineComment position before rest
    have length : position + 2 + Mode.comment.left rest =
      position + 1 + (Mode.comment.left rest + 1) := by omega
    rw [length] at found
    rw [Text.regionsFrom_slashes, length]
    exact (stretchesFrom_of_some found).trans (congrArg (_ :: ·) (ih (position + 2) (some '/')))
  | beyond _ unbroken _ ih =>
    rw [Text.regionsFrom_beyond position unbroken, leftIn, if_pos rfl, Mode.left_beyond unbroken]
    exact ih _ _
  | @lineBreak c rest breaks _ ih =>
    have absent := Text.slashes_of_isLineBreak breaks rest
    rw [Text.regionsFrom_lineBreak position breaks, leftIn, if_pos rfl, Mode.left_lineBreak breaks]
    exact (lineComment_unopened absent).trans (ih _ _)

/-- The strings that are found by their pattern are those of the scan. -/
theorem string_of_walk {mode : Mode} {text : Text} (walk : Walk mode text) (position : Nat)
    (before : Option Char) :
    string.stretchesFrom (leftIn .string mode text) position before text =
      ((regionsFrom mode position text).filter (·.kind == .string)).map stretchOf := by
  induction walk generalizing position before with
  | done _ =>
    rw [Text.regionsFrom_nil, stretchesFrom]
    rfl
  | code plain noQuote _ _ ih =>
    rw [Text.regionsFrom_code position plain]
    exact (string_unopened noQuote).trans (ih _ _)
  | quote single walk ih =>
    rw [Text.regionsFrom_quote position single]
    exact (stretchesFrom_of_some (matchEnd?_string walk position before)).trans
      (congrArg (_ :: ·) (ih _ _))
  | inside quote backslash unbroken absent _ ih =>
    rw [Text.regionsFrom_inside position quote backslash unbroken, leftIn, if_pos rfl,
      Mode.left_inside quote backslash unbroken]
    exact ih _ _
  | unquote _ ih =>
    rw [Text.regionsFrom_unquote, leftIn, if_pos rfl, Mode.left_unquote]
    exact ih _ _
  | slashes _ ih =>
    rw [Text.regionsFrom_slashes]
    exact (string_unopened (by decide)).trans ((string_unopened (by decide)).trans (ih _ _))
  | beyond noQuote unbroken _ ih =>
    rw [Text.regionsFrom_beyond position unbroken]
    exact (string_unopened noQuote).trans (ih _ _)
  | lineBreak breaks _ ih =>
    rw [Text.regionsFrom_lineBreak position breaks]
    exact (string_unopened (Text.ne_of_isLineBreak breaks rfl)).trans (ih _ _)

end Heuristic

end KotlinHighlight
