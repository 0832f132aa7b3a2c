import KotlinHighlight.Editor.Painter
import KotlinHighlight.ErrorLocation

/-! # The output pane

Lines of compiler output that carry an error location stand out as a whole, so that a reader can go
to it.
-/

namespace KotlinHighlight

open Editor (Format FormatRange Painting Screen)

/-- The colors of lines that carry an error location. -/
structure OutputPane where
  foreground : String := "#FF6B6B"
  background : String := "#3D1F1F"
deriving DecidableEq, Repr

namespace OutputPane

def format (pane : OutputPane) (screen : Screen) : Format :=
  ⟨screen.shownColor pane.foreground, false, some (screen.shownColor pane.background)⟩

/-- The location that a line carries. A line that is gone carries none. -/
def location? (block : Option Text) : Option ErrorLocation :=
  block.bind ErrorLocation.parse?

/-- The formats of a line: one over all of it if it carries an error location. -/
def formatsOf (pane : OutputPane) (screen : Screen) (block : Text) : List FormatRange :=
  if (ErrorLocation.parse? block).isSome then
    [⟨0, block.length, pane.format screen⟩]
  else []

/-- The formats of all lines in order. Lines have no state here. -/
def paint (pane : OutputPane) (screen : Screen) (blocks : List Text) : List Painting :=
  blocks.zipIdx.map fun (block, number) => ⟨number, pane.formatsOf screen block, none⟩

end OutputPane

end KotlinHighlight
