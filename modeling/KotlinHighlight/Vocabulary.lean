import KotlinHighlight.Category
import KotlinHighlight.Pattern

/-! # Known words

The hard keywords, the well-known functions and the primitive types, in the order in which they are
declared. A word is found where it stands alone, between word boundaries.
-/

namespace KotlinHighlight.Vocabulary

open Pattern

/-- The hard keywords. Soft keywords need their context, so they are left out. -/
def keywords : List String :=
  ["fun", "val", "var", "if", "else", "for", "while", "return", "class", "when", "is", "in",
   "object", "interface", "package", "as", "break", "continue", "do", "null", "true", "false",
   "this", "super", "throw", "try", "typealias", "typeof"]

/-- Well-known functions of the standard library. -/
def builtinFunctions : List String :=
  ["println", "print", "readLine", "readln", "require", "check", "error", "repeat", "map", "filter"]

/-- The primitive types. -/
def types : List String :=
  ["Byte", "Short", "Int", "Long", "Float", "Double", "Boolean", "Char", "String"]

/-- The three tables in the order in which they are searched. -/
def tables : List (Category × List String) :=
  [(.keyword, keywords), (.builtinFunction, builtinFunctions), (.type, types)]

/-- Whether a word is tried before another: the longer one first, then in alphabetical order. -/
def triedBefore (first second : String) : Bool :=
  second.length < first.length || (first.length == second.length && first ≤ second)

def insertWord (word : String) : List String → List String
  | [] => [word]
  | other :: rest =>
    if triedBefore word other then word :: other :: rest else other :: insertWord word rest

/-- Words in the order in which they are tried. -/
def tryOrder (words : List String) : List String :=
  words.foldr insertWord []

/-- One of the given words, alone between word boundaries. -/
def pattern (words : List String) : Pattern :=
  sequence [boundary, choice ((tryOrder words).map (literal ·.toList)), boundary]

theorem mem_insertWord {word other : String} {words : List String} :
    other ∈ insertWord word words ↔ other = word ∨ other ∈ words := by
  induction words with
  | nil => simp [insertWord]
  | cons first rest ih =>
    unfold insertWord
    split
    · simp
    · simp [ih, or_left_comm]

/-- Ordering loses no word and adds none. -/
theorem mem_tryOrder {word : String} {words : List String} :
    word ∈ tryOrder words ↔ word ∈ words := by
  induction words with
  | nil => simp [tryOrder]
  | cons first rest ih => rw [tryOrder, List.foldr_cons, mem_insertWord, ← tryOrder, ih]; simp

/-- Each known word is a word: it is not empty and has word characters only. -/
theorem isWord_of_mem_tables : ∀ table ∈ tables, ∀ word ∈ table.2,
    word ≠ "" ∧ word.toList.all Unicode.isWord := by
  decide

end KotlinHighlight.Vocabulary
