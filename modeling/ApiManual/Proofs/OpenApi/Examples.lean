import ApiManual.Proofs.Json.Opening
import ApiManual.Proofs.OpenApi.Component
import ApiManual.Proofs.Param.Numbers
import ApiManual.Proofs.Param.Places

/-!
# Examples in schemas and in payloads

An author's example of a field is shown twice, in the schema of the field and in the example payload.

* `Fields.Leads`: where a field of a tree has its place in the payload.
* `at?_examplePayload`: what stands at this place.
* `ofLines_example_shown`: the payload has the example that the schema has, but that the examples of lists and
  objects are decoded, so the two are the same unless such an example is JSON.
-/

namespace ApiManual

/-! ## Places -/

/-- The cells from the payload of a field to that of the fields below it: a list has one element. -/
def Field.inside (field : Field) : List Cell := if field.type = .array then [.item 0] else []

/-- The cells that lead to a field's place in the payload of a tree, through fields without examples. -/
inductive Fields.Leads : Fields → List Cell → Field → Prop where
  | here {fields : Fields} {name : String} {field : Field} (found : (name, field) ∈ fields) :
      fields.Leads [.field name] field
  | under {fields : Fields} {name : String} {parent field : Field} {cells : List Cell}
      (found : (name, parent) ∈ fields) (plain : parent.exampleValue = none)
      (rest : Fields.Leads parent.children cells field) :
      fields.Leads (.field name :: (parent.inside ++ cells)) field

section Places

variable {fields : Fields} {cells : List Cell} {field : Field} {name : String}

theorem Fields.Leads.ne_nil (h : fields.Leads cells field) : fields ≠ [] := by
  cases h with
  | here found => exact List.ne_nil_of_mem found
  | under found => exact List.ne_nil_of_mem found

/-- A level of the payload has the payload of each field under its name. -/
theorem cell?_examplePayload (hdistinct : fields.names.Nodup) (h : (name, field) ∈ fields) :
    (Json.obj (examplePayload fields)).cell? (.field name) = some field.payload := by
  have hget : Entries.get? fields name = some field := Entries.get?_of_mem hdistinct h
  rw [Json.cell?, examplePayload_eq_map, Entries.get?_map, hget]
  rfl

/-- The payload of a field without an example has that of the fields below it inside. -/
theorem at?_inside (hscoped : field.Scoped) (hplain : field.exampleValue = none) (hchildren : field.children ≠ [])
    (cells : List Cell) :
    field.payload.at? (field.inside ++ cells) = (Json.obj (examplePayload field.children)).at? cells := by
  rw [Field.payload_of_none hplain]
  unfold Field.inside
  by_cases harray : field.type = .array
  · rw [if_pos harray, if_pos harray, Field.exampleItems, if_neg hchildren]
    rfl
  · have hobject : field.type.isObject = true := by
      by_contra hobject
      exact hchildren (hscoped (ValueType.isStructured_eq_false_iff.mpr ⟨harray, by simpa using hobject⟩))
    rw [if_neg harray, if_neg harray, if_pos hobject]
    rfl

/-- A field's payload stands at its place in the payload of the tree. -/
theorem at?_examplePayload (h : fields.Leads cells field) (hdeclared : fields.Declared)
    (hscoped : ∀ entry ∈ fields, entry.2.Each Field.Scoped) :
    (Json.obj (examplePayload fields)).at? cells = some field.payload := by
  induction h with
  | here found =>
    rw [Json.at?, cell?_examplePayload hdeclared.distinct found]
    rfl
  | @under fields name parent field cells found plain rest ih =>
    have hparent := hdeclared.each _ found
    have hinside := hscoped _ found
    have hbelow : Fields.Declared parent.children := ⟨hparent.self.distinct, fun _ hentry => hparent.child hentry⟩
    rw [Json.at?, cell?_examplePayload hdeclared.distinct found, Option.bind_some,
      at?_inside hinside.self plain rest.ne_nil]
    exact ih hbelow fun _ hentry => hinside.child hentry

end Places

/-! ## Examples -/

/-- Decoding changes the texts that are JSON, and nothing else. -/
theorem decoded_eq_self_iff {v : Json} : v.decoded = v ↔ ∀ text, v = .str text → Json.isJson text = false := by
  cases v with
  | str s =>
    unfold Json.decoded Json.isJson
    cases hread : Json.read s with
    | ok w =>
      have hne : w ≠ .str s := fun heq => Json.read_ne_self s (heq ▸ hread)
      simp [hread, hne, Except.isOk, Except.toBool]
    | error e => simp [hread, Except.isOk, Except.toBool]
  | _ => simp [Json.decoded]

theorem shown_eq_self_iff {type : ValueType} {v : Json} :
    type.shown v = v ↔ (type.isStructured = true → ∀ text, v = .str text → Json.isJson text = false) := by
  unfold ValueType.shown
  split
  · rename_i hstructured
    rw [decoded_eq_self_iff]
    exact ⟨fun h _ => h, fun h => h hstructured⟩
  · rename_i hscalar
    exact ⟨fun _ h => absurd h hscalar, fun _ => rfl⟩

/-- What the schema of a field has as its example, the payload has at the field's place, decoded for lists and
objects. The two are the same unless the example of a list or an object is JSON. -/
theorem ofLines_example_shown {lines : List String} {bound : Option Int} {fields : Fields} {cells : List Cell}
    {field : Field} {v : Json} (h : Fields.ofLines lines bound = .ok fields) (hleads : fields.Leads cells field)
    (hexample : field.schema.keyword? "example" = some v) :
    (Json.obj (examplePayload fields)).at? cells = some (field.type.shown v) ∧
      ((Json.obj (examplePayload fields)).at? cells = some v ↔
        (field.type.isStructured = true → ∀ text, v = .str text → Json.isJson text = false)) := by
  rw [field.schema_exampleValue] at hexample
  have hat := at?_examplePayload hleads (ofLines_declared h) (ofLines_scoped h).each
  rw [Field.payload_of_some hexample] at hat
  refine ⟨hat, ?_⟩
  rw [hat, Option.some.injEq]
  exact shown_eq_self_iff

/-! ## Terms with an example in a list -/

namespace Offers

def lines : List String := [
  "return \x7b",
  "  # @responseParam offers list What is sold.",
  "  \"offers\": [",
  "    # @responseParam terms json Example: \x7b\"net\": 30\x7d",
  "    \"terms\": o.terms,",
  "  ],",
  "\x7d"]

def net : Json := .str "\x7b\"net\": 30\x7d"

def terms : Field := { type := .json, exampleValue := some net }

def offers : Field := { type := .array, description := "What is sold.", items := some [("terms", terms)] }

def fields : Fields := [("offers", offers)]

def place : List Cell := [.field "offers", .item 0, .field "terms"]

theorem leads_terms : fields.Leads place terms := .under List.mem_cons_self rfl (.here List.mem_cons_self)

theorem terms_shown :
    Fields.ofLines lines = .ok fields ∧ fields.Leads place terms ∧ terms.schema.keyword? "example" = some net ∧
      (Json.obj (examplePayload fields)).at? place = some (terms.type.shown net) ∧
      ((Json.obj (examplePayload fields)).at? place = some net ↔
        (terms.type.isStructured = true → ∀ text, net = .str text → Json.isJson text = false)) := by
  have hfields : Fields.ofLines lines = .ok fields := rfl
  have hexample : terms.schema.keyword? "example" = some net := rfl
  exact ⟨hfields, leads_terms, hexample, ofLines_example_shown hfields leads_terms hexample⟩

end Offers

/-! ## A list with an example -/

namespace Labels

def lines : List String := [
  "return \x7b",
  "  # @responseParam tags array Example: [\"a\"]",
  "  \"tags\": self.tags,",
  "\x7d"]

def tags : Field := { type := .array, exampleValue := some (.str "[\"a\"]") }

def fields : Fields := [("tags", tags)]

theorem tags_differ :
    Fields.ofLines lines = .ok fields ∧
      ¬ ∀ (cells : List Cell) (field : Field) (v : Json), fields.Leads cells field →
        field.schema.keyword? "example" = some v → (Json.obj (examplePayload fields)).at? cells = some v := by
  refine ⟨rfl, fun hagree => ?_⟩
  have htext : (Json.obj (examplePayload fields)).at? [.field "tags"] = some (.str "[\"a\"]") :=
    hagree [.field "tags"] tags _ (.here List.mem_cons_self) rfl
  have hlist : (Json.obj (examplePayload fields)).at? [.field "tags"] = some (.arr [.str "a"]) := rfl
  exact nomatch hlist.symm.trans htext

end Labels

end ApiManual
