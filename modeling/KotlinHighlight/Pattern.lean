import KotlinHighlight.Text.Basic
import KotlinHighlight.Unicode.Word

/-! # Patterns

A pattern says where a stretch of text that starts at a cursor may end. The ends come in order of
preference: the first alternative before the second, a long repetition before a short one, or the
short one first for the reluctant repetition. The first end is the match at that cursor, and the
matches of a text are found from left to right without overlap.
-/

namespace KotlinHighlight

/-- A place in a text: its position, the character before it and the text after it. -/
structure Cursor where
  position : Nat
  before : Option Char
  ahead : Text
deriving DecidableEq, Repr

/-- Whether exactly one of the two characters around a cursor is a word character. -/
def Cursor.atBoundary (cursor : Cursor) : Bool :=
  cursor.before.any Unicode.isWord != cursor.ahead.head?.any Unicode.isWord

/-- What a stretch of text has to look like. -/
inductive Pattern where
  /-- Nothing at all. -/
  | empty
  /-- One character of a class. -/
  | one (accepts : Char → Bool)
  /-- One pattern and then the other. -/
  | both (first second : Pattern)
  /-- The first pattern, or else the second. -/
  | either (first second : Pattern)
  /-- The body any number of times, as often as possible. -/
  | many (body : Pattern)
  /-- The body any number of times, as seldom as possible. -/
  | few (body : Pattern)
  /-- Nothing, between a word character and none. -/
  | boundary

namespace Pattern

/-- The ends of up to `count` steps and then `later`, the ends of more steps first. -/
def manySteps (step : Cursor → List Cursor) : Nat → Cursor → List Cursor → List Cursor
  | 0, cursor, later => cursor :: later
  | count + 1, cursor, later =>
    (step cursor).foldr (manySteps step count) (cursor :: later)

/-- The ends of up to `count` steps and then `later`, the ends of fewer steps first. -/
def fewSteps (step : Cursor → List Cursor) : Nat → Cursor → List Cursor → List Cursor
  | 0, cursor, later => cursor :: later
  | count + 1, cursor, later =>
    cursor :: (step cursor).foldr (fewSteps step count) later

/-- The ends of a pattern from a cursor, the preferred ones first. -/
def ends : Pattern → Cursor → List Cursor
  | empty, cursor => [cursor]
  | one accepts, ⟨position, _, ahead⟩ =>
    match ahead with
    | [] => []
    | c :: rest => if accepts c then [⟨position + 1, some c, rest⟩] else []
  | both first second, cursor => (first.ends cursor).flatMap second.ends
  | either first second, cursor => first.ends cursor ++ second.ends cursor
  | many body, cursor => manySteps body.ends cursor.ahead.length cursor []
  | few body, cursor => fewSteps body.ends cursor.ahead.length cursor []
  | boundary, cursor => if cursor.atBoundary then [cursor] else []

def optional (body : Pattern) : Pattern :=
  either body empty

def char (c : Char) : Pattern :=
  one (· == c)

def literal : Text → Pattern
  | [] => empty
  | c :: rest => both (char c) (literal rest)

def sequence : List Pattern → Pattern
  | [] => empty
  | [last] => last
  | first :: others => both first (sequence others)

/-- The first of several patterns that leads to an end; none of them if there is none. -/
def choice : List Pattern → Pattern
  | [] => one fun _ => false
  | [last] => last
  | first :: others => either first (choice others)

/-- The position where the match at a cursor ends. -/
def matchEnd? (pattern : Pattern) (cursor : Cursor) : Option Nat :=
  (pattern.ends cursor).head?.map (·.position)

end Pattern

/-- A stretch of text from `start` up to, but without, `stop`. -/
structure Stretch where
  start : Nat
  stop : Nat
deriving DecidableEq, Repr

namespace Pattern

/-- The matches from a cursor on, after the next `skip` characters. Each search goes on right after
the match before it, and a match that would be empty is none. -/
def stretchesFrom (pattern : Pattern) (skip position : Nat) (before : Option Char) :
    Text → List Stretch
  | [] => []
  | c :: rest =>
    match skip with
    | skip + 1 => pattern.stretchesFrom skip (position + 1) (some c) rest
    | 0 =>
      match pattern.matchEnd? ⟨position, before, c :: rest⟩ with
      | none => pattern.stretchesFrom 0 (position + 1) (some c) rest
      | some stop =>
        if position < stop then
          ⟨position, stop⟩ ::
            pattern.stretchesFrom (stop - (position + 1)) (position + 1) (some c) rest
        else pattern.stretchesFrom 0 (position + 1) (some c) rest

/-- The non-empty matches of a pattern in a text, from left to right and without overlap. -/
def stretches (pattern : Pattern) (text : Text) : List Stretch :=
  pattern.stretchesFrom 0 0 none text

end Pattern

end KotlinHighlight
