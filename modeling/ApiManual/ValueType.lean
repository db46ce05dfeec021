import ApiManual.Text.Blank
import ApiManual.Text.Case

/-!
# Value types

The types that a parameter or a field can be declared with. `ValueType.normalize` reads a declared type:
blanks and letter case make no difference, common short names are known, and every other name stands
for a string. `other` holds a type given by hand that is none of these.
-/

namespace ApiManual

inductive ValueType where
  | string
  | integer
  | number
  | float
  | boolean
  | array
  | object
  | json
  | other (name : String)
  deriving DecidableEq, Repr, Inhabited

namespace ValueType

def name : ValueType → String
  | string => "string"
  | integer => "integer"
  | number => "number"
  | float => "float"
  | boolean => "boolean"
  | array => "array"
  | object => "object"
  | json => "json"
  | other n => n

/-- The types that have a name of their own. -/
def named : List ValueType := [string, integer, number, float, boolean, array, object, json]

/-- The type of exactly this name. -/
def ofName (n : String) : ValueType := (named.find? (·.name == n)).getD (other n)

def shortNames : List (String × ValueType) := [
  ("int", integer), ("bool", boolean), ("double", float), ("str", string), ("list", array),
  ("dict", object)]

def normalize (declared : String) : ValueType :=
  let n := String.ofList (Text.lower (Text.trim declared.toList))
  match shortNames.lookup n with
  | some t => t
  | none => (named.find? (·.name == n)).getD string

/-- The type's name in a manual: one name for all numbers with a fraction, one for all objects. -/
def manualName : ValueType → String
  | float => "number"
  | json => "object"
  | t => t.name

/-- Objects, under both of their names. -/
def isObject : ValueType → Bool
  | object | json => true
  | _ => false

/-- Lists and objects, whose examples are written as JSON. -/
def isStructured : ValueType → Bool
  | array | object | json => true
  | _ => false

end ValueType

end ApiManual
