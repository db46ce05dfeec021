import ApiManual.Resource.Schema

/-!
# Component schemas

The schema of a tree of fields: an object whose required names and properties stand in the order of the
fields. A resource's component adds its description and its example payload.
-/

namespace ApiManual

/-- Texts as a list. -/
def textList (texts : List String) : Json := .arr (texts.map .str)

/-- The names of the required fields. -/
def requiredNames (fields : Fields) : List String := (fields.filter (·.2.required)).map (·.1)

/-- The schema of an object from its required names and the schemas of its properties. -/
def objectSchema (required : List String) (properties : List (String × Json)) : Json :=
  .obj ([("type", .str "object")] ++
    (if required.isEmpty then [] else [("required", textList required)]) ++
    [("properties", .obj properties)])

/-- What a field says beyond its type: its description, choices and example. -/
def fieldNotes (description : String) (choices : Option (List String)) (exampleValue : Option Json) :
    List (String × Json) :=
  (if description = "" then [] else [("description", .str description)]) ++
  (match choices with
    | none | some [] => []
    | some choices => [("enum", textList choices)]) ++
  (match exampleValue with
    | none => []
    | some v => [("example", v)])

mutual

def Field.schema : Field → Json
  | ⟨type, description, _, exampleValue, choices, items, properties⟩ =>
    let shape :=
      if type = .array then .obj [("type", .str "array"), ("items", itemsSchema items)]
      else if type.isObject then propertiesSchema properties
      else .obj [("type", .str type.manualName)]
    .obj (shape.members ++ fieldNotes description choices exampleValue)

/-- The schema of a list's elements; without fields it allows everything. -/
def itemsSchema : Option (List (String × Field)) → Json
  | none | some [] => .obj []
  | some (f :: fs) => objectSchema (requiredNames (f :: fs)) (fieldSchemas (f :: fs))

def propertiesSchema : Option (List (String × Field)) → Json
  | none => objectSchema [] []
  | some fs => objectSchema (requiredNames fs) (fieldSchemas fs)

def fieldSchemas : List (String × Field) → List (String × Json)
  | [] => []
  | (name, field) :: fields => (name, field.schema) :: fieldSchemas fields

end

/-- The schema of an object with these fields. -/
def Fields.schema (fields : Fields) : Json := objectSchema (requiredNames fields) (fieldSchemas fields)

/-- The component of a resource. -/
def ResourceSchema.component (schema : ResourceSchema) : Json :=
  .obj ((Fields.schema schema.properties).members ++
    (if schema.description = "" then [] else [("description", .str schema.description)]) ++
    [("example", .obj schema.payload)])

end ApiManual
