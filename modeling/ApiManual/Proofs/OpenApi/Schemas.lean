import ApiManual.Proofs.Entries
import ApiManual.Proofs.OpenApi.Typed

/-!
# The resources of a document

The components of a document are those of the resources of routes in listed groups, under the names of the
resources.

* `Listed`, `LastNamed`: the resources that a document should hold, and the last one of each name.
* `get?_schemaComponents_iff`: under a name stands the component of the last resource of that name.
* `assembled_schemas`: every component comes from a listed resource, and no resource is lost exactly when resources
  of one name have one component.
-/

namespace ApiManual

/-- The resources of the routes in the listed groups, in order. -/
def listedSchemas (groups : List String) (routes : List Route) : List ResourceSchema :=
  (routes.filter fun route => groups.contains route.group).flatMap (·.schemas)

/-- The resource belongs to a route in a listed group. -/
def Listed (groups : List String) (routes : List Route) (schema : ResourceSchema) : Prop :=
  ∃ route ∈ routes, route.group ∈ groups ∧ schema ∈ route.schemas

/-- The last resource of its name. -/
def LastNamed (schemas : List ResourceSchema) (schema : ResourceSchema) : Prop :=
  ∃ before after, schemas = before ++ schema :: after ∧ ∀ later ∈ after, later.name ≠ schema.name

def ResourceSchema.entry (schema : ResourceSchema) : String × Json := (schema.name, schema.component)

section Schemas

variable {groups : List String} {routes : List Route} {schemas : List ResourceSchema} {schema : ResourceSchema}
  {name : String} {component : Json}

theorem mem_listedSchemas : schema ∈ listedSchemas groups routes ↔ Listed groups routes schema := by
  unfold listedSchemas Listed
  simp only [List.mem_flatMap, List.mem_filter, List.contains_eq_mem, decide_eq_true_eq, and_assoc]

theorem schemaComponents_eq (groups : List String) (routes : List Route) :
    schemaComponents groups routes = Entries.ofPairs ((listedSchemas groups routes).map ResourceSchema.entry) := by
  unfold schemaComponents listedSchemas
  rw [List.map_flatMap]
  rfl

theorem lastOfName_entries_iff : LastOfName (schemas.map ResourceSchema.entry) name component ↔
    ∃ schema, LastNamed schemas schema ∧ schema.name = name ∧ schema.component = component := by
  constructor
  · rintro ⟨before, after, heq, hafter⟩
    obtain ⟨first, rest, rfl, rfl, hrest⟩ := List.map_eq_append_iff.mp heq
    obtain ⟨schema, last, rfl, hentry, rfl⟩ := List.map_eq_cons_iff.mp hrest
    obtain ⟨rfl, rfl⟩ := Prod.mk.inj hentry
    refine ⟨schema, ⟨first, last, rfl, ?_⟩, rfl, rfl⟩
    exact fun later hlater => hafter later.entry (List.mem_map_of_mem hlater)
  · rintro ⟨schema, ⟨before, after, rfl, hafter⟩, rfl, rfl⟩
    refine ⟨before.map ResourceSchema.entry, after.map ResourceSchema.entry, by simp [ResourceSchema.entry], ?_⟩
    rw [List.forall_mem_map]
    exact hafter

/-- Under a name stands the component of the last resource of that name. -/
theorem get?_schemaComponents_iff : (schemaComponents groups routes).get? name = some component ↔
    ∃ schema, LastNamed (listedSchemas groups routes) schema ∧ schema.name = name ∧ schema.component = component := by
  rw [schemaComponents_eq, Entries.get?_ofPairs_eq_some_iff]
  exact lastOfName_entries_iff

theorem LastNamed.mem (h : LastNamed schemas schema) : schema ∈ schemas := by
  obtain ⟨before, after, rfl, -⟩ := h
  simp

theorem exists_lastNamed (h : schema ∈ schemas) : ∃ last, LastNamed schemas last ∧ last.name = schema.name := by
  have hname : schema.name ∈ (schemas.map ResourceSchema.entry).map (·.1) :=
    List.mem_map_of_mem (List.mem_map_of_mem h)
  obtain ⟨component, hlast⟩ := Entries.exists_lastOfName hname
  obtain ⟨last, hlast, hlastName, -⟩ := lastOfName_entries_iff.mp hlast
  exact ⟨last, hlast, hlastName⟩

theorem names_schemaComponents (groups : List String) (routes : List Route) :
    InFirstOrder ((listedSchemas groups routes).map (·.name)) (schemaComponents groups routes).names := by
  have h := Entries.inFirstOrder_ofPairs ((listedSchemas groups routes).map ResourceSchema.entry)
  rw [List.map_map] at h
  rw [schemaComponents_eq]
  exact h

theorem of_mem_schemaComponents (h : (name, component) ∈ schemaComponents groups routes) :
    ∃ schema, Listed groups routes schema ∧ schema.name = name ∧ schema.component = component := by
  have hget := Entries.get?_of_mem (names_schemaComponents groups routes).nodup h
  obtain ⟨schema, hlast, hschema⟩ := get?_schemaComponents_iff.mp hget
  exact ⟨schema, mem_listedSchemas.mp hlast.mem, hschema⟩

/-- No resource is lost exactly when resources of one name have one component. -/
theorem schemaComponents_hold_iff :
    (∀ schema, Listed groups routes schema →
      (schemaComponents groups routes).get? schema.name = some schema.component) ↔
    ∀ schema other, Listed groups routes schema → Listed groups routes other → schema.name = other.name →
      schema.component = other.component := by
  constructor
  · intro h schema other hschema hother hname
    have hfound := h schema hschema
    rw [hname, h other hother] at hfound
    exact (Option.some.inj hfound).symm
  · intro h schema hschema
    obtain ⟨last, hlast, hname⟩ := exists_lastNamed (mem_listedSchemas.mpr hschema)
    exact get?_schemaComponents_iff.mpr
      ⟨last, hlast, hname, h last schema (mem_listedSchemas.mp hlast.mem) hschema hname⟩

theorem assemble_components {config : Config} {sampler : Sampler} {manual : Json}
    (h : assemble config sampler routes = .ok manual) :
    manual.under? ["components", "schemas"] = some (.obj (schemaComponents config.schemaGroups routes)) := by
  obtain ⟨paths, -, heq⟩ := of_bind_ok h
  obtain rfl := Except.ok.inj heq
  rfl

end Schemas

/-- The components of a document all come from resources of routes in listed groups. Each such resource finds the
last one of its name under the name, so that none is lost exactly when those of one name have one component. -/
theorem assembled_schemas (config : Config) (routes : List Route) :
    let groups := config.schemaGroups
    let components := schemaComponents groups routes
    (∀ sampler manual, assemble config sampler routes = .ok manual →
      manual.under? ["components", "schemas"] = some (.obj components)) ∧
    components.names.Nodup ∧
    (∀ name component, (name, component) ∈ components →
      ∃ schema, Listed groups routes schema ∧ schema.name = name ∧ schema.component = component) ∧
    (∀ schema, Listed groups routes schema → ∃ last, LastNamed (listedSchemas groups routes) last ∧
      last.name = schema.name ∧ components.get? schema.name = some last.component) ∧
    ((∀ schema, Listed groups routes schema → components.get? schema.name = some schema.component) ↔
      ∀ schema other, Listed groups routes schema → Listed groups routes other → schema.name = other.name →
        schema.component = other.component) := by
  refine ⟨fun sampler manual => assemble_components, (names_schemaComponents _ routes).nodup,
    fun name component => of_mem_schemaComponents, ?_, schemaComponents_hold_iff⟩
  intro schema hschema
  obtain ⟨last, hlast, hname⟩ := exists_lastNamed (mem_listedSchemas.mpr hschema)
  exact ⟨last, hlast, hname, get?_schemaComponents_iff.mpr ⟨last, hlast, hname, rfl⟩⟩

/-! ## Resources of one name -/

namespace Authors

def config : Config := { schemaGroups := ["Users", "Posts"] }

/-- The account of an author. -/
def account : ResourceSchema :=
  { name := "Author", properties := [("id", { type := .integer })], payload := [("id", .int 1)] }

/-- The author of a post, by name. -/
def byline : ResourceSchema :=
  { name := "Author", properties := [("name", { type := .string })], payload := [("name", .str "example")] }

def routes (inPosts : ResourceSchema) : List Route := [
  { id := "x", group := "Users", title := "Users.", methods := ["GET"], uri := "/users", schemas := [account] },
  { id := "y", group := "Posts", title := "Posts.", methods := ["GET"], uri := "/posts", schemas := [inPosts] }]

theorem listed_iff {inPosts schema : ResourceSchema} :
    Listed config.schemaGroups (routes inPosts) schema ↔ schema = account ∨ schema = inPosts := by
  rw [← mem_listedSchemas]
  have hlisted : listedSchemas config.schemaGroups (routes inPosts) = [account, inPosts] := rfl
  simp [hlisted]

/-- A resource that two groups share is there once. -/
theorem account_shared : ∃ manual, assemble config none (routes account) = .ok manual ∧
    manual.under? ["components", "schemas"] = some (.obj [("Author", account.component)]) ∧
    ∀ schema, Listed config.schemaGroups (routes account) schema →
      (schemaComponents config.schemaGroups (routes account)).get? schema.name = some schema.component := by
  obtain ⟨hmanual, -, -, -, hheld⟩ := assembled_schemas config (routes account)
  obtain ⟨manual, hassembled⟩ : ∃ manual, assemble config none (routes account) = .ok manual :=
    exists_of_isOk (by decide +kernel)
  refine ⟨manual, hassembled, hmanual none manual hassembled, hheld.mpr ?_⟩
  intro schema other hschema hother _
  rw [listed_iff, or_self] at hschema hother
  rw [hschema, hother]

/-- Of two resources with one name the first is lost. -/
theorem account_lost : Listed config.schemaGroups (routes byline) account ∧
    account.component = .obj [("type", .str "object"), ("properties", .obj [("id", .obj [("type", .str "integer")])]),
      ("example", .obj [("id", .int 1)])] ∧
    ∃ manual, assemble config none (routes byline) = .ok manual ∧
      manual.under? ["components", "schemas"] = some (.obj [("Author",
        .obj [("type", .str "object"), ("properties", .obj [("name", .obj [("type", .str "string")])]),
          ("example", .obj [("name", .str "example")])])]) := by
  refine ⟨listed_iff.mpr (.inl rfl), rfl, ?_⟩
  obtain ⟨manual, hassembled⟩ : ∃ manual, assemble config none (routes byline) = .ok manual :=
    exists_of_isOk (by decide +kernel)
  exact ⟨manual, hassembled, assemble_components hassembled⟩

end Authors

end ApiManual
