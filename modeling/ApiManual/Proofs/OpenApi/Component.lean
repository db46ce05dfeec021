import ApiManual.Proofs.OpenApi.Payload

/-!
# Component schemas are copies of their fields

The schema that is written for a tree of fields has the shape of the tree: property for property, in the same order,
with what each field says and with the names that are required at each level.

* `Json.nodes`, `Fields.nodes`: the properties of a schema and the fields of a tree with the names on the way to
  them, each in front of those below it.
* `Json.Copies`: a node of a schema says what a field says.
* `Field.level_schema`: the properties below a field's schema are the schemas of the fields below the field.
* `ofLines_schema_copies`: the schema of a source's fields is a copy of their tree.
-/

namespace ApiManual

/-! ## Going through a schema -/

namespace Json

/-- The schema that lists the properties below a node: that of the elements of a list, else the node itself. -/
def level (node : Json) : Json :=
  match node.keyword? "type" with
  | some (.str "array") => (node.keyword? "items").getD .null
  | _ => node

/-- The schemas of the properties below a node. -/
def properties (node : Json) : Entries Json := ((node.level.keyword? "properties").getD .null).members

theorem sizeOf_members {v : Json} {entry : String × Json} (h : entry ∈ v.members) : sizeOf entry.2 < sizeOf v := by
  cases v with
  | obj fields =>
    have hentry : sizeOf entry < sizeOf fields := List.sizeOf_lt_of_mem h
    obtain ⟨name, value⟩ := entry
    simp only [obj.sizeOf_spec, Prod.mk.sizeOf_spec] at hentry ⊢
    omega
  | _ => simp [members] at h

theorem sizeOf_keyword? {schema v : Json} {name : String} (h : schema.keyword? name = some v) :
    sizeOf v < sizeOf schema := by
  obtain ⟨before, after, heq, -⟩ := List.lookup_eq_some_iff.mp h
  have hmem : (name, v) ∈ schema.members := by rw [heq]; simp
  exact sizeOf_members hmem

theorem sizeOf_level (node : Json) : sizeOf node.level ≤ sizeOf node := by
  unfold level
  split
  · cases h : node.keyword? "items" with
    | none => cases node <;> simp
    | some items => exact (sizeOf_keyword? h).le
  · exact le_rfl

theorem sizeOf_properties {node : Json} {entry : String × Json} (h : entry ∈ node.properties) :
    sizeOf entry.2 < sizeOf node := by
  unfold properties at h
  cases hlisted : node.level.keyword? "properties" with
  | none => simp [hlisted, members] at h
  | some listed =>
    rw [hlisted] at h
    calc sizeOf entry.2 < sizeOf listed := sizeOf_members h
      _ < sizeOf node.level := sizeOf_keyword? hlisted
      _ ≤ sizeOf node := sizeOf_level node

/-- The properties of a schema with the names on the way to them, each in front of those below it. -/
def nodes (schema : Json) : List (List String × Json) :=
  schema.properties.attach.flatMap fun ⟨entry, _⟩ =>
    ([entry.1], entry.2) :: entry.2.nodes.map fun below => (entry.1 :: below.1, below.2)
termination_by sizeOf schema
decreasing_by exact sizeOf_properties ‹_›

end Json

theorem Field.sizeOf_children (field : Field) : sizeOf field.children ≤ sizeOf field := by
  have hgetD : ∀ fields : Option Fields, sizeOf (fields.getD []) ≤ sizeOf fields := by
    intro fields
    cases fields <;> simp
  obtain ⟨type, description, required, exampleValue, choices, items, properties⟩ := field
  have hitems := hgetD items
  have hproperties := hgetD properties
  unfold Field.children
  simp only [Field.mk.sizeOf_spec]
  split <;> omega

theorem Fields.sizeOf_children {fields : Fields} {entry : String × Field} (h : entry ∈ fields) :
    sizeOf entry.2.children < sizeOf fields := by
  have hentry := List.sizeOf_lt_of_mem h
  have hchildren := entry.2.sizeOf_children
  obtain ⟨name, field⟩ := entry
  simp only [Prod.mk.sizeOf_spec] at hentry hchildren ⊢
  omega

/-- The fields of a tree with the names on the way to them, each in front of those below it. -/
def Fields.nodes (fields : Fields) : List (List String × Field) :=
  fields.attach.flatMap fun ⟨entry, _⟩ =>
    ([entry.1], entry.2) :: (Fields.nodes entry.2.children).map fun below => (entry.1 :: below.1, below.2)
termination_by sizeOf fields
decreasing_by exact Fields.sizeOf_children ‹_›

theorem flatMap_attach {α β : Type} (xs : List α) (f : α → List β) :
    (xs.attach.flatMap fun x => f x.1) = xs.flatMap f := by
  conv => rhs; rw [← List.attach_map_subtype_val xs, List.flatMap_map]

theorem Json.nodes_eq (schema : Json) : schema.nodes = schema.properties.flatMap fun entry =>
    ([entry.1], entry.2) :: entry.2.nodes.map fun below => (entry.1 :: below.1, below.2) := by
  rw [Json.nodes]
  exact flatMap_attach schema.properties fun entry =>
    ([entry.1], entry.2) :: entry.2.nodes.map fun below => (entry.1 :: below.1, below.2)

theorem Fields.nodes_eq (fields : Fields) : fields.nodes = fields.flatMap fun entry =>
    ([entry.1], entry.2) :: (Fields.nodes entry.2.children).map fun below => (entry.1 :: below.1, below.2) := by
  rw [Fields.nodes]
  exact flatMap_attach fields fun entry =>
    ([entry.1], entry.2) :: (Fields.nodes entry.2.children).map fun below => (entry.1 :: below.1, below.2)

/-! ## What a node says -/

namespace Json

/-- The schema requires just these names, in this order; without names it says nothing of it. -/
def RequiresJust (schema : Json) (names : List String) : Prop :=
  schema.keyword? "required" = if names = [] then none else some (textList names)

/-- A node of a schema says what a field says, and requires what the fields below it require. -/
structure Copies (node : Json) (field : Field) : Prop where
  type : node.keyword? "type" = some (.str field.type.manualName)
  description : node.keyword? "description" =
    if field.description = "" then none else some (.str field.description)
  choices : node.keyword? "enum" =
    if field.choices.getD [] = [] then none else some (textList (field.choices.getD []))
  required : node.level.RequiresJust (Entries.names (field.children.filter (·.2.required)))

/-- A schema has the properties that a tree has fields, in their order, and each says what the field says. -/
structure CopiesTree (schema : Json) (fields : Fields) : Prop where
  paths : schema.nodes.map (·.1) = fields.nodes.map (·.1)
  nodes : List.Forall₂ (fun node entry => node.2.Copies entry.2) schema.nodes fields.nodes
  required : schema.level.RequiresJust (Entries.names (fields.filter (·.2.required)))

theorem level_of_type {node : Json} {type : String} (h : node.keyword? "type" = some (.str type))
    (hne : type ≠ "array") : node.level = node := by
  unfold level
  rw [h]
  split
  · rename_i heq
    exact absurd (Json.str.inj (Option.some.inj heq)) hne
  · rfl

theorem level_of_array {node items : Json} (h : node.keyword? "type" = some (.str "array"))
    (hitems : node.keyword? "items" = some items) : node.level = items := by
  unfold level
  rw [h, hitems]
  rfl

end Json

theorem requiresJust_objectSchema (required : List String) (properties : List (String × Json)) :
    (objectSchema required properties).RequiresJust required := by
  unfold Json.RequiresJust objectSchema
  cases required <;> rfl

theorem level_objectSchema (required : List String) (properties : List (String × Json)) :
    (objectSchema required properties).level = objectSchema required properties :=
  Json.level_of_type (objectSchema_type required properties) (by decide)

theorem properties_schema (fields : Fields) : (Fields.schema fields).properties = fieldSchemas fields := by
  unfold Json.properties Fields.schema
  rw [level_objectSchema, objectSchema_properties]
  rfl

namespace Field

variable (field : Field)

theorem schema_type : field.schema.keyword? "type" = some (.str field.type.manualName) := by
  rw [field.keyword?_schema (by decide)]
  unfold shape
  split_ifs with harray hobject
  · rw [harray]
    rfl
  · rw [ValueType.manualName_of_isObject hobject]
    rfl
  · rfl

/-- What is no form keyword is said by the notes of a field. -/
theorem keyword?_notes {name : String} (h : name ∉ Json.formKeywords) : field.schema.keyword? name =
    Entries.get? (fieldNotes field.description field.choices field.exampleValue) name := by
  have hshape : field.shape.members.lookup name = none := by
    simp only [Json.formKeywords, List.mem_cons, List.not_mem_nil, or_false, not_or] at h
    unfold shape Fields.schema objectSchema
    split_ifs <;> simp [Json.members, List.lookup_cons, beq_false_of_ne, h]
  rw [schema_eq]
  unfold Json.keyword?
  rw [Json.members, Entries.get?, List.lookup_append, hshape]
  rfl

/-- A field's notes are its description, its choices and its example, as far as it has them. -/
theorem get?_fieldNotes (description : String) (choices : Option (List String)) (exampleValue : Option Json) :
    let notes : Entries Json := fieldNotes description choices exampleValue
    notes.get? "description" = (if description = "" then none else some (.str description)) ∧
      notes.get? "enum" = (if choices.getD [] = [] then none else some (textList (choices.getD []))) ∧
      notes.get? "example" = exampleValue := by
  unfold fieldNotes
  split <;> rcases choices with _ | _ | ⟨choice, choices⟩ <;> rcases exampleValue with _ | v <;>
    exact ⟨rfl, rfl, rfl⟩

theorem schema_description : field.schema.keyword? "description" =
    if field.description = "" then none else some (.str field.description) :=
  (field.keyword?_notes (by decide)).trans (get?_fieldNotes ..).1

theorem schema_choices : field.schema.keyword? "enum" =
    if field.choices.getD [] = [] then none else some (textList (field.choices.getD [])) :=
  (field.keyword?_notes (by decide)).trans (get?_fieldNotes ..).2.1

theorem schema_exampleValue : field.schema.keyword? "example" = field.exampleValue :=
  (field.keyword?_notes (by decide)).trans (get?_fieldNotes ..).2.2

variable {field}

/-- The level below a field is the schema of the fields below it: of a list it is what the elements have to fit, of
an object its own schema, and a scalar has no properties. -/
theorem level_schema (h : field.Scoped) :
    field.schema.level.RequiresJust (requiredNames field.children) ∧
      field.schema.properties = fieldSchemas field.children := by
  have htype := field.schema_type
  have hform : ∀ name ∈ Json.formKeywords, field.schema.keyword? name = field.shape.keyword? name :=
    fun _ hname => field.keyword?_schema hname
  by_cases harray : field.type = .array
  · have hlevel : field.schema.level = itemSchema field.children := by
      refine Json.level_of_array (by rw [htype, harray]; rfl) ?_
      rw [hform _ (by decide), shape, if_pos harray]
      rfl
    unfold Json.properties
    rw [hlevel, itemSchema]
    split
    · rename_i hnone
      rw [hnone]
      exact ⟨rfl, rfl⟩
    · exact ⟨requiresJust_objectSchema .., by rw [← properties_schema]; rfl⟩
  by_cases hobject : field.type.isObject = true
  · have hname := ValueType.manualName_of_isObject hobject
    have hlevel : field.schema.level = field.schema := Json.level_of_type htype (by rw [hname]; decide)
    have hshape : field.shape = Fields.schema field.children := by rw [shape, if_neg harray, if_pos hobject]
    unfold Json.properties Json.RequiresJust
    rw [hlevel, hform _ (by decide), hform _ (by decide), hshape]
    exact ⟨requiresJust_objectSchema .., by rw [Fields.schema, objectSchema_properties]; rfl⟩
  · have hleaf : field.children = [] :=
      h (ValueType.isStructured_eq_false_iff.mpr ⟨harray, by simpa using hobject⟩)
    have hshape : field.shape = .obj [("type", .str field.type.manualName)] := by
      rw [shape, if_neg harray, if_neg hobject]
    -- the name of the type may still be that of lists, and then the level is not the schema itself
    have hlevel : field.schema.level = field.schema ∨ field.schema.level = .null := by
      unfold Json.level
      rw [hform "items" (by decide), hshape]
      split
      · exact .inr rfl
      · exact .inl rfl
    rw [hleaf]
    unfold Json.properties Json.RequiresJust
    rcases hlevel with hlevel | hlevel
    · rw [hlevel, hform _ (by decide), hform _ (by decide), hshape]
      exact ⟨rfl, rfl⟩
    · rw [hlevel]
      exact ⟨rfl, rfl⟩

/-- The schema of a field says what the field says. -/
theorem copies_schema (h : field.Scoped) : field.schema.Copies field :=
  ⟨field.schema_type, field.schema_description, field.schema_choices, (level_schema h).1⟩

end Field

/-! ## Trees -/

theorem forall₂_flatMap {α β γ : Type} {R : β → γ → Prop} {f : α → List β} {g : α → List γ} {xs : List α}
    (h : ∀ x ∈ xs, List.Forall₂ R (f x) (g x)) : List.Forall₂ R (xs.flatMap f) (xs.flatMap g) := by
  induction xs with
  | nil => exact .nil
  | cons x xs ih =>
    obtain ⟨hx, hxs⟩ := List.forall_mem_cons.mp h
    rw [List.flatMap_cons, List.flatMap_cons]
    exact List.rel_append hx (ih hxs)

/-- A property and a field have the same names on the way to them, and the property says what the field says. -/
def Renders (node : List String × Json) (entry : List String × Field) : Prop :=
  node.1 = entry.1 ∧ node.2.Copies entry.2

theorem Renders.under {node : List String × Json} {entry : List String × Field} (h : Renders node entry)
    (name : String) : Renders (name :: node.1, node.2) (name :: entry.1, entry.2) :=
  ⟨by rw [h.1], h.2⟩

/-- The properties of one level and of all below it, from those below each of its fields. -/
theorem renders_level {schema : Json} {fields : Fields} (hproperties : schema.properties = fieldSchemas fields)
    (hbelow : ∀ entry ∈ fields, entry.2.schema.Copies entry.2 ∧
      List.Forall₂ Renders entry.2.schema.nodes (Fields.nodes entry.2.children)) :
    List.Forall₂ Renders schema.nodes fields.nodes := by
  rw [Json.nodes_eq, Fields.nodes_eq, hproperties, fieldSchemas_eq_map, List.flatMap_map]
  refine forall₂_flatMap fun entry hentry => ?_
  obtain ⟨hcopies, hnodes⟩ := hbelow entry hentry
  refine .cons ⟨rfl, hcopies⟩ ?_
  rw [List.forall₂_map_left_iff, List.forall₂_map_right_iff]
  exact hnodes.imp fun _ _ h => h.under entry.1

theorem renders_schema {field : Field} (h : field.Each Field.Scoped) :
    List.Forall₂ Renders field.schema.nodes (Fields.nodes field.children) := by
  induction h with
  | @mk field here below ih =>
    refine renders_level (Field.level_schema here).2 fun entry hentry => ⟨?_, ih entry hentry⟩
    exact Field.copies_schema (below entry hentry).self

/-- The schema of a source's fields is a copy of their tree: it has a property for each field and no other, in the
same order and under the same names, that says what the field says. -/
theorem ofLines_schema_copies {lines : List String} {bound : Option Int} {fields : Fields}
    (h : Fields.ofLines lines bound = .ok fields) : (Fields.schema fields).CopiesTree fields := by
  have hscoped := ofLines_scoped h
  have hnodes : List.Forall₂ Renders (Fields.schema fields).nodes fields.nodes := by
    refine renders_level (properties_schema fields) fun entry hentry => ?_
    have heach := hscoped.each entry hentry
    exact ⟨Field.copies_schema heach.self, renders_schema heach⟩
  refine ⟨?_, hnodes.imp fun _ _ h => h.2, ?_⟩
  · rw [← List.forall₂_eq_eq_eq, List.forall₂_map_left_iff, List.forall₂_map_right_iff]
    exact hnodes.imp fun _ _ h => h.1
  · rw [Fields.schema, level_objectSchema]
    exact requiresJust_objectSchema ..

/-! ## An invoice with its positions -/

namespace Invoice

def lines : List String := [
  "return [",
  "  # @responseParam number str required",
  "  \"number\": self.number,",
  "  # @responseParam positions list required What was ordered.",
  "  \"positions\": [\x7b",
  "    # @responseParam article json",
  "    \"article\": \x7b",
  "      # @responseParam code int required",
  "      \"code\": p.code,",
  "    \x7d,",
  "    # @responseParam unit str The unit. Enum: [box, piece]",
  "    \"unit\": p.unit,",
  "  \x7d],",
  "]"]

def article : Fields := [("code", { type := .integer, required := true })]

def position : Fields := [
  ("article", { type := .json, properties := some article }),
  ("unit", { type := .string, description := "The unit.", choices := some ["box", "piece"] })]

def fields : Fields := [
  ("number", { type := .string, required := true }),
  ("positions", { type := .array, required := true, description := "What was ordered.", items := some position })]

theorem schema_copies_fields :
    Fields.ofLines lines = .ok fields ∧ (Fields.schema fields).CopiesTree fields := by
  have hfields : Fields.ofLines lines = .ok fields := rfl
  exact ⟨hfields, ofLines_schema_copies hfields⟩

end Invoice

end ApiManual
