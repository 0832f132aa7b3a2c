import KotlinHighlight.Text.Basic

/-! # Lines

Lines are separated by line feeds: a text with `n` of them has `n + 1` lines, the last of which may
be empty. Carriage returns belong to the line they stand in.
-/

namespace KotlinHighlight.Text

def lines : Text → List Text
  | [] => [[]]
  | c :: rest =>
    if c = '\n' then [] :: lines rest
    else
      match lines rest with
      | [] => [[c]]
      | line :: others => (c :: line) :: others

def joinLines (texts : List Text) : Text :=
  List.intercalate ['\n'] texts

/-- The positions right after the line feeds of a text that stands at `position`. -/
def startsAfter (position : Nat) : Text → List Nat
  | [] => []
  | c :: rest =>
    if c = '\n' then (position + 1) :: startsAfter (position + 1) rest
    else startsAfter (position + 1) rest

def lineStarts (text : Text) : List Nat :=
  0 :: startsAfter 0 text

def sizeBefore (size : Text → Nat) : Nat → List Text → Nat
  | 0, _ => 0
  | _, [] => 0
  | count + 1, line :: others => size line + 1 + sizeBefore size count others

theorem lines_ne_nil (text : Text) : lines text ≠ [] := by
  cases text with
  | nil => simp [lines]
  | cons c rest =>
    unfold lines
    split
    · simp
    · split <;> simp

theorem joinLines_lines (text : Text) : joinLines (lines text) = text := by
  induction text with
  | nil => rfl
  | cons c rest ih =>
    by_cases feed : c = '\n'
    · cases split : lines rest with
      | nil => exact absurd split (lines_ne_nil rest)
      | cons line others =>
        rw [split] at ih
        simp only [joinLines, List.intercalate] at ih
        simp [lines, joinLines, feed, split, List.intercalate, ih]
    · cases split : lines rest with
      | nil => exact absurd split (lines_ne_nil rest)
      | cons line others =>
        simp only [joinLines, split] at ih
        cases others <;> simp_all [lines, joinLines, List.intercalate]

end KotlinHighlight.Text
