import KotlinHighlight.Text.Lines
import KotlinHighlight.Text.Utf16

/-! # Documents

The text of an editor is a list of blocks, one for each line. Positions in a document count UTF-16
units. The plain text has a space for each no-break space and a line feed for each other separator,
so that it may have more lines than the document has blocks.
-/

namespace KotlinHighlight.Editor

/-- The text of an editor, block by block and without the line feeds between them. -/
structure Document where
  blocks : List Text
deriving DecidableEq, Repr

def plainChar (c : Char) : Char :=
  if c.toNat = 0x00a0 then ' '
  else if c.toNat = 0x2028 ∨ c.toNat = 0x2029 ∨ c.toNat = 0xfdd0 ∨ c.toNat = 0xfdd1 then '\n'
  else c

def plainForm (block : Text) : Text :=
  block.map plainChar

namespace Document

def blank : Document :=
  ⟨[[]]⟩

/-- The number of units of the text, with one more for its end. -/
def characterCount (document : Document) : Nat :=
  Text.length16 (Text.joinLines document.blocks) + 1

/-- The number of units before a block. -/
def position (document : Document) (block : Nat) : Nat :=
  Text.sizeBefore Text.length16 block document.blocks

def plainText (document : Document) : Text :=
  plainForm (Text.joinLines document.blocks)

def setBlock (document : Document) (block : Nat) (text : Text) : Document :=
  ⟨document.blocks.set block text⟩

end Document

end KotlinHighlight.Editor
