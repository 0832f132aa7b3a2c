import KotlinHighlight.Editor.Document
import KotlinHighlight.Proofs.Lines

/-! # The text of a document

The plain text of a document is made up of the plain forms of its blocks. Where all characters are at
most U+FFFF, positions that count UTF-16 units count characters (`IsBasic.position_eq`).
-/

namespace KotlinHighlight

namespace Text

/-- Whether each character of a text is one UTF-16 unit. -/
def IsBasic (text : Text) : Prop :=
  ∀ c ∈ text, c.toNat < 0x10000

instance (text : Text) : Decidable text.IsBasic :=
  List.decidableBAll (fun c : Char => c.toNat < 0x10000) text

theorem sizeBefore_congr {size other : Text → Nat} {count : Nat} {texts : List Text}
    (same : ∀ text ∈ texts.take count, size text = other text) :
    sizeBefore size count texts = sizeBefore other count texts := by
  induction texts generalizing count with
  | nil => cases count <;> rfl
  | cons first others ih =>
    cases count with
    | zero => rfl
    | succ count =>
      rw [List.take_succ_cons, List.forall_mem_cons] at same
      rw [sizeBefore, sizeBefore, same.1, ih same.2]

theorem sizeBefore_map (size : Text → Nat) (form : Text → Text) (count : Nat) (texts : List Text) :
    sizeBefore size count (texts.map form) = sizeBefore (fun text => size (form text)) count texts := by
  induction texts generalizing count with
  | nil => cases count <;> rfl
  | cons first others ih =>
    cases count with
    | zero => rfl
    | succ count => rw [List.map_cons, sizeBefore, sizeBefore, ih]

theorem linesBefore_set {count number : Nat} (early : count ≤ number) (texts : List Text)
    (content : Text) : linesBefore count (texts.set number content) = linesBefore count texts := by
  rw [linesBefore, linesBefore, List.take_set_of_le early]

theorem linesAfter_set (number : Nat) (texts : List Text) (content : Text) :
    linesAfter number (texts.set number content) = linesAfter number texts := by
  rw [linesAfter, linesAfter, List.drop_set_of_lt (Nat.lt_succ_self _)]

end Text

namespace Editor

theorem length_plainForm (block : Text) : (plainForm block).length = block.length :=
  List.length_map _

theorem plainForm_joinLines (blocks : List Text) :
    plainForm (Text.joinLines blocks) = Text.joinLines (blocks.map plainForm) := by
  cases blocks with
  | nil => rfl
  | cons first others =>
    have feed : ∀ text : Text, ('\n' :: text).map plainChar = '\n' :: plainForm text := fun _ => rfl
    rw [List.map_cons, Text.joinLines_cons_eq, Text.joinLines_cons_eq, plainForm, List.map_append,
      List.map_flatMap, List.flatMap_map]
    simp only [feed, plainForm]

namespace Document

def plainBlocks (document : Document) : List Text :=
  document.blocks.map plainForm

/-- Whether each character of a document is one UTF-16 unit. -/
def IsBasic (document : Document) : Prop :=
  ∀ block ∈ document.blocks, Text.IsBasic block

instance (document : Document) : Decidable document.IsBasic :=
  List.decidableBAll Text.IsBasic document.blocks

theorem plainText_eq (document : Document) :
    document.plainText = Text.joinLines document.plainBlocks :=
  plainForm_joinLines document.blocks

theorem getD_blocks {document : Document} {block : Nat} {text : Text}
    (there : document.blocks[block]? = some text) : document.blocks.getD block [] = text := by
  rw [List.getD_eq_getElem?_getD, there, Option.getD_some]

theorem getElem?_blocks {document : Document} {block : Nat}
    (valid : block < document.blocks.length) :
    document.blocks[block]? = some (document.blocks.getD block []) := by
  rw [getD_blocks (List.getElem?_eq_getElem valid), List.getElem?_eq_getElem valid]

theorem getElem?_plainBlocks {document : Document} {block : Nat} {text : Text}
    (there : document.blocks[block]? = some text) :
    document.plainBlocks[block]? = some (plainForm text) := by
  rw [plainBlocks, List.getElem?_map, there, Option.map_some]

def start (document : Document) (block : Nat) : Nat :=
  Text.sizeBefore List.length block document.blocks

theorem start_eq (document : Document) (block : Nat) :
    document.start block = (Text.linesBefore block document.plainBlocks).length := by
  rw [start, Text.length_linesBefore, plainBlocks, Text.sizeBefore_map]
  exact Text.sizeBefore_congr fun text _ => (length_plainForm text).symm

/-- A block stands between the lines before it and the lines after it. -/
theorem plainText_split {document : Document} {block : Nat} {text : Text}
    (there : document.blocks[block]? = some text) :
    document.plainText = Text.linesBefore block document.plainBlocks ++ plainForm text ++
      Text.linesAfter block document.plainBlocks := by
  rw [plainText_eq, Text.joinLines_eq (getElem?_plainBlocks there)]

/-- Where all characters are of one unit, the units before a block are the characters before it. -/
theorem IsBasic.position_eq {document : Document} (basic : document.IsBasic) (block : Nat) :
    document.position block = document.start block :=
  Text.sizeBefore_congr fun text member =>
    Text.length16_eq_length (basic text (List.mem_of_mem_take member))

theorem isBasic_joinLines {document : Document} (basic : document.IsBasic) :
    Text.IsBasic (Text.joinLines document.blocks) := by
  intro c member
  rcases Text.eq_feed_or_mem_of_mem_joinLines member with rfl | ⟨block, inside, there⟩
  · decide
  · exact basic block inside c there

/-- Where all characters are of one unit, so is the number of units of the text. -/
theorem characterCount_eq {document : Document} (basic : document.IsBasic) :
    document.characterCount = document.plainText.length + 1 := by
  rw [characterCount, Text.length16_eq_length (isBasic_joinLines basic), plainText,
    length_plainForm]

theorem plainBlocks_setBlock (document : Document) (block : Nat) (text : Text) :
    (document.setBlock block text).plainBlocks = document.plainBlocks.set block (plainForm text) :=
  List.map_set

/-- Another text in one block leaves what stands before it and after it. -/
theorem plainText_setBlock {document : Document} {block : Nat} (valid : block < document.blocks.length)
    (text : Text) : (document.setBlock block text).plainText =
      Text.linesBefore block document.plainBlocks ++ plainForm text ++
        Text.linesAfter block document.plainBlocks := by
  have there : (document.setBlock block text).blocks[block]? = some text :=
    List.getElem?_set_self valid
  rw [plainText_split there, plainBlocks_setBlock, Text.linesBefore_set (Nat.le_refl _),
    Text.linesAfter_set]

theorem isBasic_setBlock {document : Document} (basic : document.IsBasic) (block : Nat) {text : Text}
    (basicText : Text.IsBasic text) : (document.setBlock block text).IsBasic := by
  intro other member
  rcases List.mem_or_eq_of_mem_set member with old | rfl
  · exact basic other old
  · exact basicText

end Document

end Editor

end KotlinHighlight
