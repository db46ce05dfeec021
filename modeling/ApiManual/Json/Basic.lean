import ApiManual.Entries
import ApiManual.Number.Binary64

/-!
# JSON values

Whole numbers and floating-point numbers are kept apart, and objects keep the order of their members.
-/

namespace ApiManual

inductive Json where
  | null
  | bool (b : Bool)
  | int (i : Int)
  | float (x : Binary64)
  | str (s : String)
  | arr (items : List Json)
  | obj (fields : List (String × Json))
  deriving Repr, Inhabited, BEq

namespace Json

/-- Lists and objects can hold further values. -/
def isContainer : Json → Bool
  | .arr _ | .obj _ => true
  | _ => false

/-- The members of an object. -/
def members : Json → Entries Json
  | .obj fields => fields
  | _ => []

end Json

end ApiManual
