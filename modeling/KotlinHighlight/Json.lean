import KotlinHighlight.Assoc
import KotlinHighlight.Decimal.Binary64
import KotlinHighlight.Text.Utf16

/-! # JSON values

The values that a settings file holds. Whole numbers and floating-point numbers are told apart, the
members of an object are in order with each key once, and a string is a sequence of UTF-16 units,
because an escape can give a surrogate without its partner.
-/

namespace KotlinHighlight

inductive Json where
  | null
  | bool (value : Bool)
  | int (value : Int)
  | float (value : Binary64)
  | string (units : Units)
  | array (items : List Json)
  | object (members : List (Units × Json))
deriving Repr

namespace Json

def ofText (text : Text) : Json :=
  string (Units.ofText text)

def text? : Json → Option Text
  | string units => Units.toText? units
  | _ => none

def members? : Json → Option (Assoc Units Json)
  | object members => some members
  | _ => none

/-- Whether a value counts as true: any but null, false, zero, and the empty string, array and
object. -/
def isTruthy : Json → Bool
  | null => false
  | bool value => value
  | int value => value != 0
  | float (.finite _ rank) => rank.val != 0
  | float _ => true
  | string units => !units.isEmpty
  | array items => !items.isEmpty
  | object members => !members.isEmpty

end Json

end KotlinHighlight
