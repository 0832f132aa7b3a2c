import KotlinHighlight.Containment
import KotlinHighlight.Heuristic
import KotlinHighlight.Number
import KotlinHighlight.Palette
import KotlinHighlight.Region.Index
import KotlinHighlight.Span
import KotlinHighlight.Vocabulary

/-! # Highlighting

The spans of a text, pass by pass: comments, literals, numbers, and the known words. A later pass is
applied over an earlier one. The spans depend on the text, the palette and the containment mode
only, and every text has an answer, however unfinished it is.
-/

namespace KotlinHighlight

def Stretch.span (palette : Palette) (category : Category) (stretch : Stretch) : Span :=
  ⟨stretch.start, stretch.stop, category, palette.color category⟩

def Region.span (palette : Palette) (category : Category) (region : Region) : Span :=
  ⟨region.start, region.stop, category, palette.color category⟩

namespace Highlight

/-- The kinds of regions that one pass marks, and their category. -/
def regionPasses : List (List RegionKind × Category) :=
  [([.lineComment], .comment), ([.blockComment], .comment), ([.string, .character], .string),
    ([.rawString], .string)]

/-- The patterns that are searched outside the regions, and their categories. -/
def codePasses : List (Pattern × Category) :=
  (Number.pattern, .number) ::
    Vocabulary.tables.map fun (category, words) => (Vocabulary.pattern words, category)

/-- The spans of the regions, pass by pass. -/
def regionSpans (palette : Palette) (regions : List Region) : List Span :=
  regionPasses.flatMap fun (kinds, category) =>
    (regions.filter (kinds.contains ·.kind)).map (·.span palette category)

/-- The spans of the matches that start outside all regions, pass by pass. -/
def codeSpans (palette : Palette) (index : RegionIndex) (text : Text) : List Span :=
  codePasses.flatMap fun (pattern, category) =>
    ((pattern.stretches text).filter fun stretch => !index.contains stretch.start).map
      (·.span palette category)

/-- The spans of a text whose regions are told apart by the scan. -/
def scan (palette : Palette) (text : Text) : List Span :=
  let index := RegionIndex.ofText text
  regionSpans palette index.regions.toList ++ codeSpans palette index text

/-- One pass of heuristic highlighting, and where its matches may not start. -/
structure HeuristicPass where
  pattern : Pattern
  category : Category
  outsideComments : Bool
  outsideStrings : Bool

/-- The passes of heuristic highlighting. Every known word has its own. -/
def heuristicPasses : List HeuristicPass :=
  [⟨Heuristic.lineComment, .comment, false, false⟩,
    ⟨Heuristic.blockComment, .comment, false, false⟩,
    ⟨Heuristic.string, .string, true, false⟩,
    ⟨Heuristic.rawString, .string, true, false⟩,
    ⟨Number.pattern, .number, true, true⟩] ++
  Vocabulary.tables.flatMap fun (category, words) =>
    words.map fun word => ⟨Vocabulary.pattern [word], category, true, true⟩

/-- Whether a match of a pass may start at a position. -/
def HeuristicPass.admits (pass : HeuristicPass) (text : Text) (start : Nat) : Bool :=
  !(pass.outsideComments && Heuristic.leavesCommentOpen (text.take start)) &&
    !(pass.outsideStrings && Heuristic.leavesStringOpen (text.take start))

/-- The spans of a text by the heuristic. -/
def heuristic (palette : Palette) (text : Text) : List Span :=
  heuristicPasses.flatMap fun pass =>
    ((pass.pattern.stretches text).filter (pass.admits text ·.start)).map
      (·.span palette pass.category)

/-- The spans of a text, in the order in which they are applied. -/
def spans (mode : Containment) (palette : Palette) (text : Text) : List Span :=
  match mode with
  | .scan => scan palette text
  | .heuristic => heuristic palette text

/-- Whether a position, from the start of a text to its end, is inside a comment. Where the text is
empty nothing is. -/
def isInsideComment (mode : Containment) (text : Text) (position : Int) : Bool :=
  if text = [] ∨ position < 0 ∨ text.length < position then false
  else
    match mode with
    | .scan => (RegionIndex.ofText text).inComment position
    | .heuristic => Heuristic.leavesCommentOpen (text.take position.toNat)

/-- Whether a position, from the start of a text to its end, is inside a string or a character
literal. Where the text is empty nothing is. -/
def isInsideString (mode : Containment) (text : Text) (position : Int) : Bool :=
  if text = [] ∨ position < 0 ∨ text.length < position then false
  else
    match mode with
    | .scan => (RegionIndex.ofText text).inString position
    | .heuristic => Heuristic.leavesStringOpen (text.take position.toNat)

end Highlight

end KotlinHighlight
