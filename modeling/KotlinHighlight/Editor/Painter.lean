import KotlinHighlight.Cache
import KotlinHighlight.Editor.Document
import KotlinHighlight.LineIndex

/-! # Painting blocks

A painter gives each block of a document its formats and a state, which says what the line feed
after the block is inside of. It reads the whole document anew only if its last reading cannot be
current: after it was told so, when the document has another number of units, or when the block does
not stand in that reading. It keeps its index if the cache gives it the very list of spans that the
index was made of. In heuristic mode a change can reach back to earlier blocks, so a reading with
another list asks for one repaint of everything. Formats that were made once are used again.
-/

namespace KotlinHighlight.Editor

structure Format where
  foreground : String
  italic : Bool
  background : Option String
deriving DecidableEq, Repr

structure FormatRange where
  start : Int
  length : Int
  format : Format
deriving DecidableEq, Repr

/-- What the line feed after a block is inside of. -/
inductive BlockState where
  | normal
  | comment
  | string
deriving DecidableEq, Repr

def BlockState.code : BlockState → Nat
  | normal => 0
  | comment => 1
  | string => 2

def BlockState.ofCategory : Option Category → BlockState
  | none => normal
  | some .comment => comment
  | some _ => string

/-- What was painted of a block: its formats in order, and its state if it has one. -/
structure Painting where
  block : Nat
  formats : List FormatRange
  state : Option BlockState
deriving DecidableEq, Repr

/-- What formats are shown on, which knows the valid color texts. -/
structure Screen where
  isValidColor : String → Bool

/-- The color that is shown for a color text. -/
def Screen.shownColor (screen : Screen) (color : String) : String :=
  if screen.isValidColor color then color else "#000000"

def Screen.format (screen : Screen) (category : Category) (color : String) : Format :=
  ⟨screen.shownColor color, category == .comment, none⟩

/-- The formats that were made so far, each for a category in a color. -/
abbrev FormatMemo := Assoc (Category × String) Format

namespace FormatMemo

/-- The format of a category in a color: the one that was made before, or else a new one. -/
def format (memo : FormatMemo) (screen : Screen) (category : Category) (color : String) :
    Format × FormatMemo :=
  match memo.get? (category, color) with
  | some known => (known, memo)
  | none =>
    let made := screen.format category color
    (made, memo.put (category, color) made)

def ranges (memo : FormatMemo) (screen : Screen) : List Piece → List FormatRange × FormatMemo
  | [] => ([], memo)
  | piece :: pieces =>
    let (format, memo) := memo.format screen piece.span.category piece.span.color
    let (ranges, memo) := memo.ranges screen pieces
    (⟨piece.start, piece.stop - piece.start, format⟩ :: ranges, memo)

end FormatMemo

/-- A reading of a document: its plain text, and the number of its units at that time. -/
structure Reading where
  text : Text
  characterCount : Nat
deriving DecidableEq, Repr

/-- What a painter knows between two blocks. -/
structure Painter where
  cache : Cache
  debug : Bool
  formats : FormatMemo := []
  reading : Option Reading := none
  /-- The list of spans that the index was made of, by the number that the cache gave it. -/
  edition : Option Nat := none
  index : LineIndex := LineIndex.ofSpans [] []
  stale : Bool := true
  repaintPending : Bool := false

/-- What a painter brings about: lines of a report, and whether it asks for a repaint. -/
structure Effects where
  printed : List String := []
  repaintsAsked : Nat := 0
deriving DecidableEq, Repr

/-- One effect after another. -/
def Effects.andThen (first second : Effects) : Effects :=
  ⟨first.printed ++ second.printed, first.repaintsAsked + second.repaintsAsked⟩

namespace Painter

def reportLabel : String :=
  "[Highlighter] Kotlin: "

def new (theme : Option Theme) (mode : Option String) (debug : Bool) :
    Except Fault (Painter × Effects) := do
  let cache ← Cache.new theme mode
  let colors := if cache.theme.isSome then "custom" else "default"
  let line := reportLabel ++ "containment=" ++ cache.mode.name ++ " colors=" ++ colors
  return ({ cache, debug }, { printed := if debug then [line] else [] })

/-- Whether the last reading of a document cannot be relied on for a block. -/
def isStale (painter : Painter) (document : Document) (start : Nat) (block : Text) : Bool :=
  match painter.reading with
  | none => true
  | some reading =>
    painter.stale || document.characterCount != reading.characterCount ||
      (reading.text.drop start).take block.length != plainForm block

/-- Reads a document, and makes an index of its spans if they are not the list of the last one. -/
def refresh (painter : Painter) (document : Document) : Painter × Effects :=
  let text := document.plainText
  let (answer, cache) := painter.cache.ask (some text)
  let painter :=
    { painter with cache, reading := some ⟨text, document.characterCount⟩, stale := false }
  if painter.edition = some answer.edition then (painter, {})
  else
    let line := reportLabel ++ "rehighlight chars=" ++ toString text.length ++
      " spans=" ++ toString answer.spans.length
    let asks := painter.edition.isSome && cache.mode == .heuristic && !painter.repaintPending
    ({ painter with
        edition := some answer.edition
        index := LineIndex.ofSpans text answer.spans
        repaintPending := painter.repaintPending || asks },
      { printed := if painter.debug then [line] else [], repaintsAsked := if asks then 1 else 0 })

/-- Paints a block of a document by the last reading. -/
def paintAsRead (painter : Painter) (screen : Screen) (document : Document) (block : Nat)
    (text : Text) : Painting × Painter :=
  let start : Int := document.position block
  let stop := start + text.length
  let (formats, memo) := painter.formats.ranges screen (painter.index.spansBetween start stop)
  let state := BlockState.ofCategory (painter.index.endCategory (painter.index.lineAt stop))
  ({ block, formats, state := some state }, { painter with formats := memo })

/-- Paints a block of a document, after reading the document if need be. -/
def paint (painter : Painter) (screen : Screen) (document : Document) (block : Nat) :
    Painting × Painter × Effects :=
  let text := document.blocks.getD block []
  let (painter, effects) :=
    if painter.isStale document (document.position block) text then painter.refresh document
    else (painter, {})
  let (painting, painter) := painter.paintAsRead screen document block text
  (painting, painter, effects)

def paintAll (painter : Painter) (screen : Screen) (document : Document) :
    List Nat → List Painting × Painter × Effects
  | [] => ([], painter, {})
  | block :: blocks =>
    let (painting, painter, effects) := painter.paint screen document block
    let (paintings, painter, more) := painter.paintAll screen document blocks
    (painting :: paintings, painter, effects.andThen more)

/-- The painter when its last reading is not to be relied on. -/
def distrust (painter : Painter) : Painter :=
  { painter with stale := true }

def forgetFormats (painter : Painter) : Painter :=
  { painter with formats := [] }

/-- New settings for a painter, which then knows no spans. -/
def configure (painter : Painter) (theme : Option Theme) (mode : Option String) :
    Except Fault Painter := do
  let cache ← painter.cache.configure theme mode
  return { painter with cache, edition := none }

end Painter

end KotlinHighlight.Editor
