import ApiManual.OpenApi.Schema
import ApiManual.Proofs.Param.Numbers
import ApiManual.Proofs.Resource.Descent

/-!
# Fields by the fields below them

What is documented of one field, with the fields below it as one list.

* `Field.schema_eq`: its schema, from its `Field.shape` and its notes.
* `Field.payload_of_some`, `Field.payload_of_none`: its payload, with and without an example of its own.
* `examplePayload_eq_map`, `fieldSchemas_eq_map`: the payloads and schemas of one level.
-/

namespace ApiManual

/-- A scalar is neither a list nor an object. -/
theorem ValueType.isStructured_eq_false_iff {type : ValueType} :
    type.isStructured = false ↔ type ≠ .array ∧ type.isObject = false := by
  cases type <;> simp [isStructured, isObject]

theorem ValueType.manualName_of_isObject {type : ValueType} (h : type.isObject = true) :
    type.manualName = "object" := by
  cases type with
  | object | json => rfl
  | _ => cases h

theorem examplePayload_eq_map (fields : Fields) : examplePayload fields = fields.map fun e => (e.1, e.2.payload) := by
  induction fields with
  | nil => rfl
  | cons entry fields ih => rw [examplePayload, ih, List.map_cons]

theorem fieldSchemas_eq_map (fields : Fields) : fieldSchemas fields = fields.map fun e => (e.1, e.2.schema) := by
  induction fields with
  | nil => rfl
  | cons entry fields ih => rw [fieldSchemas, ih, List.map_cons]

namespace Field

/-- The elements of a list whose elements have these fields: one example, unless there are no fields. -/
def exampleItems (children : Fields) : List Json := if children = [] then [] else [.obj (examplePayload children)]

/-- What the elements of a list with these fields have to fit. -/
def itemSchema (children : Fields) : Json := if children = [] then .obj [] else Fields.schema children

/-- What a field says of the form of its values. -/
def shape (field : Field) : Json :=
  if field.type = .array then .obj [("type", .str "array"), ("items", itemSchema field.children)]
  else if field.type.isObject then Fields.schema field.children
  else .obj [("type", .str field.type.manualName)]

theorem schema_eq (field : Field) :
    field.schema = .obj (field.shape.members ++ fieldNotes field.description field.choices field.exampleValue) := by
  obtain ⟨type, description, required, exampleValue, choices, items, properties⟩ := field
  unfold schema shape children
  by_cases harray : type = .array
  · have hitems : itemsSchema items = itemSchema (items.getD []) := by
      rcases items with _ | _ | ⟨entry, fields⟩ <;> rfl
    simp only [harray, if_true, hitems]
  · have hproperties : propertiesSchema properties = Fields.schema (properties.getD []) := by
      cases properties <;> rfl
    simp only [harray, if_false, hproperties]

/-- The payload of a field without an example of its own. -/
theorem payload_of_none {field : Field} (h : field.exampleValue = none) :
    field.payload =
      if field.type = .array then .arr (exampleItems field.children)
      else if field.type.isObject then .obj (examplePayload field.children)
      else field.type.sample := by
  obtain ⟨type, description, required, exampleValue, choices, items, properties⟩ := field
  obtain rfl : exampleValue = none := h
  unfold payload children
  by_cases harray : type = .array
  · have hitems : itemsPayload items = exampleItems (items.getD []) := by
      rcases items with _ | _ | ⟨entry, fields⟩ <;> rfl
    simp only [harray, if_true, hitems]
  · have hproperties : propertiesPayload properties = examplePayload (properties.getD []) := by
      cases properties <;> rfl
    simp only [harray, if_false, hproperties]

/-- The payload of a field with an example is the example as it is shown. -/
theorem payload_of_some {field : Field} {v : Json} (h : field.exampleValue = some v) :
    field.payload = field.type.shown v := by
  obtain ⟨type, description, required, exampleValue, choices, items, properties⟩ := field
  obtain rfl : exampleValue = some v := h
  rfl

end Field

end ApiManual
