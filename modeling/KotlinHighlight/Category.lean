/-! # Categories

The kinds of things that take a color of their own.
-/

namespace KotlinHighlight

inductive Category where
  | keyword
  | string
  | comment
  | number
  | builtinFunction
  | type
deriving DecidableEq, Repr

namespace Category

def all : List Category :=
  [keyword, string, comment, number, builtinFunction, type]

def name : Category → String
  | keyword => "keyword"
  | string => "string"
  | comment => "comment"
  | number => "number"
  | builtinFunction => "builtin_function"
  | type => "type"

def ofName? (name : String) : Option Category :=
  all.find? (·.name == name)

theorem ofName?_eq_some_iff {name : String} {category : Category} :
    ofName? name = some category ↔ name = category.name := by
  constructor
  · intro found
    have same := List.find?_some found
    simpa using (beq_iff_eq.mp same).symm
  · rintro rfl
    cases category <;> decide

end Category

end KotlinHighlight
