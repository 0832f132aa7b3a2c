import KotlinHighlight.Text.Quoted

/-! # Ways to decide what is inside a comment or a literal

The scan tells regions apart in one pass. The heuristic counts delimiters before a position.
-/

namespace KotlinHighlight

/-- How it is decided whether a position is inside a comment or a literal. -/
inductive Containment where
  | scan
  | heuristic
deriving DecidableEq, Repr

/-- A request that cannot be served. -/
inductive Fault where
  /-- The name, if one was given at all, belongs to no way of deciding containment. -/
  | unknownContainment (given : Option String)
deriving DecidableEq, Repr

def Fault.message : Fault → String
  | unknownContainment none => "Unknown containment mode: None"
  | unknownContainment (some given) =>
    "Unknown containment mode: " ++ String.ofList (Text.quoted given.toList)

namespace Containment

def all : List Containment :=
  [scan, heuristic]

def name : Containment → String
  | scan => "scan"
  | heuristic => "heuristic"

def ofName? (name : String) : Option Containment :=
  all.find? (·.name == name)

/-- The mode that a request names, which it has to do. -/
def parse (given : Option String) : Except Fault Containment :=
  match given.bind ofName? with
  | some mode => .ok mode
  | none => .error (.unknownContainment given)

/-- The mode that a request names, and the scan if it names none. -/
def parseOrScan (given : Option String) : Containment :=
  (given.bind ofName?).getD scan

theorem ofName?_eq_some_iff {name : String} {mode : Containment} :
    ofName? name = some mode ↔ name = mode.name := by
  constructor
  · intro found
    have same := List.find?_some found
    exact (beq_iff_eq.mp same).symm
  · rintro rfl
    cases mode <;> decide

end Containment

end KotlinHighlight
