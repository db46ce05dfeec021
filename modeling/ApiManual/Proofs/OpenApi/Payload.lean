import ApiManual.Proofs.OpenApi.Field
import ApiManual.Proofs.Resource.Declared

/-!
# Example payloads fit their schemas

The payload that is generated from a tree of fields and the schema that is written for the same tree agree.

* `Json.Fits`: a value fits a schema, as far as types, items, properties and required names go. An object
  has all required properties and none that the schema does not list.
* `fits_examplePayload`: one level fits if every field of it does.
* `ofLines_payload_fits`: the payload of a source fits, if its authors gave no examples of lists and objects.
-/

namespace ApiManual

/-! ## Schemas and the values that fit them -/

namespace Json

/-- What a schema says under a keyword. -/
def keyword? (schema : Json) (name : String) : Option Json := Entries.get? schema.members name

/-- A schema requires a property. -/
def Requires (schema : Json) (name : String) : Prop :=
  ∃ names, schema.keyword? "required" = some (.arr names) ∧ .str name ∈ names

/-- A value fits a schema. -/
inductive Fits : Json → Json → Prop where
  /-- A schema without keywords is fit by every value. -/
  | any (v : Json) : Fits (.obj []) v
  | string {schema : Json} (type : schema.keyword? "type" = some (.str "string")) (s : String) :
      Fits schema (.str s)
  | integer {schema : Json} (type : schema.keyword? "type" = some (.str "integer")) (i : Int) :
      Fits schema (.int i)
  | number {schema : Json} (type : schema.keyword? "type" = some (.str "number")) (x : Binary64) :
      Fits schema (.float x)
  | boolean {schema : Json} (type : schema.keyword? "type" = some (.str "boolean")) (b : Bool) :
      Fits schema (.bool b)
  | array {schema itemSchema : Json} {items : List Json} (type : schema.keyword? "type" = some (.str "array"))
      (each : schema.keyword? "items" = some itemSchema) (items_fit : ∀ item ∈ items, Fits itemSchema item) :
      Fits schema (.arr items)
  | object {schema : Json} {fields properties : Entries Json}
      (type : schema.keyword? "type" = some (.str "object"))
      (lists : schema.keyword? "properties" = some (.obj properties)) (distinct : fields.names.Nodup)
      (complete : ∀ name, schema.Requires name → name ∈ fields.names)
      (known : ∀ name ∈ fields.names, name ∈ properties.names)
      (fields_fit : ∀ name v property, (name, v) ∈ fields → properties.get? name = some property →
        Fits property v) :
      Fits schema (.obj fields)

/-- The keywords that say which values fit. -/
def formKeywords : List String := ["type", "items", "properties", "required"]

/-- A schema that says of the form what another one does is fit by the same values. -/
theorem Fits.congr {schema schema' v : Json} (h : Fits schema v) (htyped : (schema.keyword? "type").isSome = true)
    (hform : ∀ name ∈ formKeywords, schema'.keyword? name = schema.keyword? name) : Fits schema' v := by
  have htype := hform "type" (by simp [formKeywords])
  have hitems := hform "items" (by simp [formKeywords])
  have hproperties := hform "properties" (by simp [formKeywords])
  have hrequired := hform "required" (by simp [formKeywords])
  cases h with
  | any => simp [keyword?, members] at htyped
  | string type s => exact .string (htype.trans type) s
  | integer type i => exact .integer (htype.trans type) i
  | number type x => exact .number (htype.trans type) x
  | boolean type b => exact .boolean (htype.trans type) b
  | array type each items_fit => exact .array (htype.trans type) (hitems.trans each) items_fit
  | object type lists distinct complete known fields_fit =>
    refine .object (htype.trans type) (hproperties.trans lists) distinct (fun name hname => ?_) known fields_fit
    obtain ⟨names, hnames, hmem⟩ := hname
    exact complete name ⟨names, hrequired ▸ hnames, hmem⟩

end Json

/-! ## Schemas of fields -/

namespace Field

theorem shape_typed (field : Field) : (field.shape.keyword? "type").isSome = true := by
  unfold shape
  split_ifs <;> rfl

/-- A field's notes say nothing of the form of its values. -/
theorem keyword?_schema (field : Field) {name : String} (h : name ∈ Json.formKeywords) :
    field.schema.keyword? name = field.shape.keyword? name := by
  have hnotes : Entries.get? (fieldNotes field.description field.choices field.exampleValue) name = none := by
    have hname : name ∉ ["description", "enum", "example"] := by
      revert name
      decide
    simp only [List.mem_cons, List.not_mem_nil, or_false, not_or] at hname
    unfold fieldNotes
    split <;> split <;> split <;> simp [Entries.get?, List.lookup_cons, beq_false_of_ne, hname]
  rw [schema_eq]
  unfold Json.keyword?
  rw [Json.members, Entries.get?, List.lookup_append]
  exact (congrArg _ hnotes).trans (Option.or_none ..)

/-- What fits the shape of a field fits its schema. -/
theorem fits_schema {field : Field} {v : Json} (h : Json.Fits field.shape v) : Json.Fits field.schema v :=
  h.congr field.shape_typed fun _ hname => field.keyword?_schema hname

end Field

/-! ## Scalars -/

/-- A value that has the type of a name fits a schema of this type, unless it is the type of lists or objects. -/
theorem fits_of_hasManualType {type : ValueType} (htype : type ∈ ValueType.named)
    (hscalar : type.isStructured = false) {schema v : Json}
    (hschema : schema.keyword? "type" = some (.str type.manualName)) (hv : HasManualType type.manualName v) :
    Json.Fits schema v := by
  generalize hname : type.manualName = name at hschema hv
  cases hv with
  | string s => exact .string hschema s
  | integer i => exact .integer hschema i
  | number x => exact .number hschema x
  | boolean b => exact .boolean hschema b
  | array | object =>
    simp only [ValueType.named, List.mem_cons, List.not_mem_nil, or_false] at htype
    rcases htype with rfl | rfl | rfl | rfl | rfl | rfl | rfl | rfl <;>
      first | exact absurd hscalar (by decide) | exact absurd hname (by decide)

theorem sample_hasManualType {type : ValueType} (htype : type ∈ ValueType.named)
    (hscalar : type.isStructured = false) : HasManualType type.manualName type.sample := by
  cases type with
  | string => exact .string _
  | integer => exact .integer _
  | number | float => exact .number _
  | boolean => exact .boolean _
  | array | object | json => exact absurd hscalar (by decide)
  | other name => simp [ValueType.named] at htype

/-- The payload of a scalar field that is declared has the field's type. -/
theorem payload_hasManualType {field : Field} (h : field.Declared) (hscalar : field.type.isStructured = false) :
    HasManualType field.type.manualName field.payload := by
  cases hexample : field.exampleValue with
  | none =>
    obtain ⟨harray, hobject⟩ := ValueType.isStructured_eq_false_iff.mp hscalar
    rw [Field.payload_of_none hexample, if_neg harray, if_neg (by simp [hobject])]
    exact sample_hasManualType h.named hscalar
  | some v =>
    obtain ⟨text, hcast⟩ := h.cast v hexample
    rw [Field.payload_of_some hexample]
    exact cast_hasManualType h.named hcast

/-! ## Levels -/

theorem requires_objectSchema {required : List String} {properties : List (String × Json)} {name : String}
    (h : (objectSchema required properties).Requires name) : name ∈ required := by
  obtain ⟨names, hnames, hmem⟩ := h
  by_cases hnone : required.isEmpty = true
  · simp [objectSchema, hnone, Json.keyword?, Json.members, Entries.get?, List.lookup_cons] at hnames
  · have hlist : textList required = .arr names := by
      simpa [objectSchema, hnone, Json.keyword?, Json.members, Entries.get?, List.lookup_cons] using hnames
    obtain rfl := Json.arr.inj hlist
    obtain ⟨text, htext, heq⟩ := List.mem_map.mp hmem
    exact Json.str.inj heq ▸ htext

theorem objectSchema_type (required : List String) (properties : List (String × Json)) :
    (objectSchema required properties).keyword? "type" = some (.str "object") := rfl

theorem objectSchema_properties (required : List String) (properties : List (String × Json)) :
    (objectSchema required properties).keyword? "properties" = some (.obj properties) := by
  unfold objectSchema
  split <;> rfl

theorem mem_names_of_required {fields : Fields} {name : String} (h : name ∈ requiredNames fields) :
    name ∈ Entries.names fields := by
  obtain ⟨entry, hentry, rfl⟩ := List.mem_map.mp h
  exact List.mem_map_of_mem (List.mem_of_mem_filter hentry)

/-- The payload of one level fits the schema of the level if each field's payload fits the field's schema. -/
theorem fits_examplePayload {fields : Fields} (hdistinct : Entries.names fields |>.Nodup)
    (h : ∀ entry ∈ fields, Json.Fits entry.2.schema entry.2.payload) :
    Json.Fits (Fields.schema fields) (.obj (examplePayload fields)) := by
  have hpayload : Entries.names (examplePayload fields) = Entries.names fields := by
    simp [Entries.names, examplePayload_eq_map]
  have hschemas : Entries.names (fieldSchemas fields) = Entries.names fields := by
    simp [Entries.names, fieldSchemas_eq_map]
  refine .object (objectSchema_type ..) (objectSchema_properties ..) (hpayload ▸ hdistinct) ?_ ?_ ?_
  · intro name hname
    rw [hpayload]
    exact mem_names_of_required (requires_objectSchema hname)
  · intro name hname
    rwa [hschemas, ← hpayload]
  · intro name v property hmem hproperty
    rw [examplePayload_eq_map] at hmem
    obtain ⟨⟨other, field⟩, hfield, heq⟩ := List.mem_map.mp hmem
    obtain ⟨rfl, rfl⟩ := Prod.mk.inj heq
    have hget : Entries.get? fields other = some field := Entries.get?_of_mem hdistinct hfield
    rw [fieldSchemas_eq_map, Entries.get?_map, hget] at hproperty
    obtain rfl := Option.some.inj hproperty
    exact h _ hfield

/-- A list or an object without an example of its own. -/
def Field.Unillustrated (field : Field) : Prop := field.type.isStructured = true → field.exampleValue = none

instance : DecidablePred Field.Unillustrated := fun field =>
  decidable_of_iff (field.type.isStructured = true → field.exampleValue.isNone = true) (by
    simp [Field.Unillustrated])

theorem payload_fits {field : Field} (hdeclared : field.Each Field.Declared) (hplain : field.Each Field.Unillustrated) :
    Json.Fits field.schema field.payload := by
  induction hdeclared with
  | @mk field here below ih =>
    obtain ⟨hfield, hbelow⟩ := hplain
    have hlevel : Json.Fits (Fields.schema field.children) (.obj (examplePayload field.children)) :=
      fits_examplePayload here.distinct fun entry hentry => ih entry hentry (hbelow entry hentry)
    apply Field.fits_schema
    by_cases hscalar : field.type.isStructured = false
    · refine fits_of_hasManualType here.named hscalar ?_ (payload_hasManualType here hscalar)
      obtain ⟨harray, hobject⟩ := ValueType.isStructured_eq_false_iff.mp hscalar
      rw [Field.shape, if_neg harray, if_neg (by simp [hobject])]
      rfl
    · have hnone : field.exampleValue = none := hfield (by simpa using hscalar)
      rw [Field.payload_of_none hnone, Field.shape]
      by_cases harray : field.type = .array
      · rw [if_pos harray, if_pos harray]
        refine .array rfl rfl fun item hitem => ?_
        unfold Field.exampleItems at hitem
        split at hitem
        · simp at hitem
        · rename_i hsome
          obtain rfl := List.mem_singleton.mp hitem
          rw [Field.itemSchema, if_neg hsome]
          exact hlevel
      · have hobject : field.type.isObject = true := by
          by_contra hobject
          exact hscalar (ValueType.isStructured_eq_false_iff.mpr ⟨harray, by simpa using hobject⟩)
        rw [if_neg harray, if_neg harray, if_pos hobject, if_pos hobject]
        exact hlevel

/-- The example payload of a source's fields fits the schema of these fields, at every level, if no list and no
object among them has an example of its own. -/
theorem ofLines_payload_fits {lines : List String} {bound : Option Int} {fields : Fields}
    (h : Fields.ofLines lines bound = .ok fields) (hplain : ∀ entry ∈ fields, entry.2.Each Field.Unillustrated) :
    Json.Fits (Fields.schema fields) (.obj (examplePayload fields)) := by
  have hdeclared := ofLines_declared h
  exact fits_examplePayload hdeclared.distinct fun entry hentry =>
    payload_fits (hdeclared.each entry hentry) (hplain entry hentry)

/-! ## A list of objects beside scalars -/

namespace UserResource

def lines : List String := [
  "return \x7b",
  "  # @responseParam id int required Example: 7",
  "  \"id\": self.id,",
  "  # @responseParam roles list The roles",
  "  # of the user.",
  "  \"roles\": [",
  "    # @responseParam name str required",
  "    \"name\": role.name,",
  "    # @responseParam weight float",
  "    \"weight\": role.weight,",
  "  ],",
  "  # @responseParam notes json",
  "  \"notes\": self.notes,",
  "\x7d"]

def role : Fields := [("name", { type := .string, required := true }), ("weight", { type := .float })]

def fields : Fields := [
  ("id", { type := .integer, required := true, exampleValue := some (.int 7) }),
  ("roles", { type := .array, description := "The roles of the user.", items := some role }),
  ("notes", { type := .json })]

theorem role_unillustrated : ∀ entry ∈ role, entry.2.Each Field.Unillustrated := by
  refine List.forall_mem_cons.mpr ⟨.leaf (by decide) rfl, List.forall_mem_singleton.mpr ?_⟩
  exact .leaf (by decide) rfl

theorem fields_unillustrated : ∀ entry ∈ fields, entry.2.Each Field.Unillustrated := by
  refine List.forall_mem_cons.mpr ⟨.leaf (by decide) rfl, List.forall_mem_cons.mpr ⟨?_, ?_⟩⟩
  · exact .mk (by decide) role_unillustrated
  · exact List.forall_mem_singleton.mpr (.leaf (by decide) rfl)

theorem payload_fits_fields :
    Fields.ofLines lines = .ok fields ∧ (∀ entry ∈ fields, entry.2.Each Field.Unillustrated) ∧
      Json.Fits (Fields.schema fields) (.obj (examplePayload fields)) := by
  have hfields : Fields.ofLines lines = .ok fields := rfl
  exact ⟨hfields, fields_unillustrated, ofLines_payload_fits hfields fields_unillustrated⟩

end UserResource

end ApiManual
