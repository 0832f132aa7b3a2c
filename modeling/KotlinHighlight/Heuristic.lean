import KotlinHighlight.Pattern
import KotlinHighlight.Region

/-! # The containment heuristic

Whether a position is inside a comment or a string is guessed from the text before it: from the
start of the line for a line comment, from the numbers of slashes and stars for a block comment, and
from the parity of the quotes for a string. Comments and strings themselves are found by patterns.
-/

namespace KotlinHighlight.Heuristic

open Pattern

/-- Two slashes and the rest of the line. -/
def lineComment : Pattern :=
  both (literal ['/', '/']) (many (one (!Text.isLineBreak ·)))

/-- The opener of a block comment and everything through the first closer. -/
def blockComment : Pattern :=
  sequence [literal ['/', '*'], few (one fun _ => true), literal Region.commentCloser]

/-- A quote and everything through the next one that no backslash escapes. A backslash escapes any
character but a line feed. -/
def string : Pattern :=
  sequence [char '"',
    many (either (one fun c => c != '"' && c != '\\') (both (char '\\') (one (· != '\n')))),
    char '"']

/-- Three quotes and everything through the next three. -/
def rawString : Pattern :=
  sequence [literal Region.rawQuotes, few (one fun _ => true), literal Region.rawQuotes]

/-- Whether a text that stands before a position leaves a comment open. Once a block comment was
opened every slash counts as an opener, and once one was closed every star counts as a closer. -/
def leavesCommentOpen (before : Text) : Bool :=
  Text.occurs ['/', '/'] (Text.lastLine before) ||
    (let opened := if Text.occurs ['/', '*'] before then before.count '/' else 0
     let closed := if Text.occurs ['*', '/'] before then before.count '*' else 0
     closed < opened)

/-- The number of quotes that no backslash stands right before. -/
def countQuotes (previous : Option Char) : Text → Nat
  | [] => 0
  | c :: rest =>
    countQuotes (some c) rest + if c = '"' ∧ previous ≠ some '\\' then 1 else 0

/-- Whether a text that stands before a position leaves a string open. -/
def leavesStringOpen (before : Text) : Bool :=
  countQuotes none before % 2 == 1

end KotlinHighlight.Heuristic
