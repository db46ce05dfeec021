import ApiManual.Json.Basic
import ApiManual.ValueType

/-!
# Resource fields

A `Field` is one node of a resource's shape: `items` are the fields of a list's elements, `properties`
those of an object.
-/

namespace ApiManual

structure Field where
  type : ValueType
  description : String := ""
  required : Bool := false
  exampleValue : Option Json := none
  choices : Option (List String) := none
  items : Option (List (String × Field)) := none
  properties : Option (List (String × Field)) := none
  deriving Repr, Inhabited

/-- The fields of one level, in order. -/
abbrev Fields := Entries Field

/-- The field with these fields below it: items of a list, properties of an object. -/
def Field.withChildren (field : Field) (children : Fields) : Field :=
  if field.type = .array then { field with items := some children }
  else { field with properties := some children }

end ApiManual
