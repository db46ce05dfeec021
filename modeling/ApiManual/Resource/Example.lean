import ApiManual.Param.Basic
import ApiManual.Resource.Field

/-!
# Example payloads

`examplePayload` builds a payload from a tree of fields: the author's example where there is one, else
one element for a list, all properties for an object, and a fixed value for a scalar. `isOverlong` says
whether an example that is read for it is overlong.
-/

namespace ApiManual

/-- The value that stands for a scalar without an example. -/
def ValueType.sample : ValueType → Json
  | .integer => .int 1
  | .number | .float => .float (.ofInt 1)
  | .boolean => .bool true
  | .string => .str "example"
  | _ => .null

mutual

def Field.payload : Field → Json
  | ⟨type, _, _, some value, _, _, _⟩ => if type.isStructured then value.decoded else value
  | ⟨type, _, _, none, _, items, properties⟩ =>
    if type = .array then .arr (itemsPayload items)
    else if type.isObject then .obj (propertiesPayload properties)
    else type.sample

def itemsPayload : Option (List (String × Field)) → List Json
  | none | some [] => []
  | some (f :: fs) => [.obj (examplePayload (f :: fs))]

def propertiesPayload : Option (List (String × Field)) → List (String × Json)
  | none => []
  | some fs => examplePayload fs

def examplePayload : List (String × Field) → List (String × Json)
  | [] => []
  | (name, field) :: fields => (name, field.payload) :: examplePayload fields

end

mutual

/-- Whether an example is overlong that the payload of the field takes. -/
def Field.isOverlong : Field → Bool
  | ⟨type, _, _, some value, _, _, _⟩ => type.isOverlong value
  | ⟨type, _, _, none, _, items, properties⟩ =>
    if type = .array then childrenOverlong items
    else if type.isObject then childrenOverlong properties
    else false

def childrenOverlong : Option (List (String × Field)) → Bool
  | none => false
  | some fields => anyOverlong fields

def anyOverlong : List (String × Field) → Bool
  | [] => false
  | (_, field) :: fields => field.isOverlong || anyOverlong fields

end

end ApiManual
