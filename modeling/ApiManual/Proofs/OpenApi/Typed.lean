import ApiManual.Proofs.Manual.Assembly
import ApiManual.Proofs.Route.Typed

/-!
# Parameters in documents are typed

A document shows path and query parameters in a list and the parameters of a body as properties.
`assembled_typed`: whatever the records and the generator, the type of each is one that a manual has, and
its example is a value of it.

* `Json.operations`, `Json.ShowsParam`: the places where a document shows parameters; what stands there can be looked up
  (`Json.showsParam_iff`).
* `showsParam_operation`: what stands there is what the routes hold.
-/

namespace ApiManual

open Source

/-! ## Reading a document -/

namespace Json

/-- What stands under these names, one inside the other. -/
def under? (v : Json) (names : List String) : Option Json := names.foldlM (fun v name => Entries.get? v.members name) v

/-- The items of a list. -/
def items : Json → List Json
  | .arr items => items
  | _ => []

/-- The operations of a document, under all paths and methods. -/
def operations (manual : Json) : List Json :=
  ((manual.under? ["paths"]).map members).getD [] |>.flatMap fun item => item.2.members.map (·.2)

/-- Where a document says of a parameter in a list what its tag is called. -/
def locations : List (String × String) := [("pathParam", "path"), ("queryParam", "query")]

/-- The operation shows a parameter of this kind and name with this schema: in its list or in its body. -/
inductive ShowsParam (op : Json) : String → String → Json → Prop where
  | listed {kind location name : String} {entries entry schema : Json} (hkind : (kind, location) ∈ locations)
      (hentries : op.under? ["parameters"] = some entries) (hentry : entry ∈ entries.items)
      (hlocation : entry.under? ["in"] = some (.str location)) (hname : entry.under? ["name"] = some (.str name))
      (hschema : entry.under? ["schema"] = some schema) : ShowsParam op kind name schema
  | property {name : String} {properties schema : Json}
      (hproperties : op.under? ["requestBody", "content", "application/json", "schema", "properties"] =
        some properties)
      (hschema : (name, schema) ∈ properties.members) : ShowsParam op "bodyParam" name schema

/-- The text that a value is, if it is one. -/
def text? : Json → Option String
  | .str s => some s
  | _ => none

theorem bind_text?_eq_some_iff {v : Option Json} {s : String} : v.bind text? = some s ↔ v = some (.str s) := by
  rcases v with _ | v
  · simp
  · cases v <;> simp [text?]

theorem showsParam_iff {op : Json} {kind name : String} : (∃ schema, op.ShowsParam kind name schema) ↔
    (∃ place ∈ locations, place.1 = kind ∧ ∃ entries ∈ op.under? ["parameters"], ∃ entry ∈ entries.items,
      (entry.under? ["in"]).bind text? = some place.2 ∧ (entry.under? ["name"]).bind text? = some name ∧
        (entry.under? ["schema"]).isSome) ∨
    kind = "bodyParam" ∧ ∃ properties ∈
      op.under? ["requestBody", "content", "application/json", "schema", "properties"],
      ∃ property ∈ properties.members, property.1 = name := by
  simp only [bind_text?_eq_some_iff]
  constructor
  · rintro ⟨schema, h⟩
    cases h with
    | listed hkind hentries hentry hlocation hname hschema =>
      exact .inl ⟨_, hkind, rfl, _, hentries, _, hentry, hlocation, hname, by simp [hschema]⟩
    | property hproperties hschema => exact .inr ⟨rfl, _, hproperties, _, hschema, rfl⟩
  · rintro (⟨place, hkind, rfl, entries, hentries, entry, hentry, hlocation, hname, hschema⟩ |
      ⟨rfl, properties, hproperties, property, hmem, rfl⟩)
    · obtain ⟨schema, hschema⟩ := Option.isSome_iff_exists.mp hschema
      exact ⟨schema, .listed hkind hentries hentry hlocation hname hschema⟩
    · exact ⟨property.2, .property hproperties hmem⟩

instance (op : Json) (kind name : String) : Decidable (∃ schema, op.ShowsParam kind name schema) :=
  decidable_of_iff _ showsParam_iff.symm

/-- The schema says the type and the example of a parameter. -/
def SaysOf (schema : Json) (p : Param) : Prop :=
  schema.under? ["type"] = some (.str p.type.manualName) ∧ schema.under? ["example"] = some p.decoded

end Json

/-! ## What an operation shows -/

section Operation

variable {route : Route} {base : Option String} {tabs : Entries String} {group : String} {op : Json}

theorem mem_parameterList {entry : Json} (h : entry ∈ parameterList route) :
    (∃ e ∈ route.params.path, entry = paramEntry "path" true e.1 e.2) ∨
    (∃ e ∈ route.params.query, entry = paramEntry "query" e.2.required e.1 e.2) ∨
    ∃ name value, entry = headerEntry name value := by
  unfold parameterList at h
  rcases List.mem_append.mp h with h | h
  · rcases List.mem_append.mp h with h | h
    · obtain ⟨e, he, rfl⟩ := List.mem_map.mp h
      exact .inl ⟨e, he, rfl⟩
    · obtain ⟨e, he, rfl⟩ := List.mem_map.mp h
      exact .inr (.inl ⟨e, he, rfl⟩)
  · obtain ⟨e, -, rfl⟩ := List.mem_map.mp h
    exact .inr (.inr ⟨_, _, rfl⟩)

theorem bodySchema_properties (params : Entries Param) :
    (bodySchema params).under? ["properties"] = if params.isEmpty then none else
      some (.obj (params.map fun e => (e.1, .obj [("type", .str e.2.type.manualName), ("example", e.2.decoded),
        ("description", .str e.2.description)]))) := by
  unfold bodySchema
  simp only
  cases (List.map (·.1) (params.filter (·.2.required))).isEmpty <;> cases params.isEmpty <;> rfl

/-- The parts of an operation that show parameters. -/
theorem operation_shows (hsound : route.Sound)
    (hop : operation (base.map fun base => documentSamples base tabs) route group = .ok op) :
    op.under? ["parameters"] = some (.arr (parameterList route)) ∧
      op.under? ["requestBody", "content", "application/json", "schema", "properties"] =
        if route.methods.any takesBody then (bodySchema route.params.body).under? ["properties"] else none := by
  unfold operation at hop
  obtain ⟨responses, -, hrest⟩ := of_bind_ok hop
  obtain ⟨⟨samples, route'⟩, hsamples, hmade⟩ := of_bind_ok hrest
  obtain ⟨rfl, hentries⟩ := sampleEntry_sound hsound hsamples
  obtain rfl := Except.ok.inj hmade
  rcases hentries with rfl | ⟨sources, rfl⟩
  all_goals
    cases route'.authenticated <;> cases route'.methods.any takesBody <;> exact ⟨rfl, rfl⟩

/-- What an operation shows is a parameter of its route. -/
theorem showsParam_operation (hsound : route.Sound)
    (hop : operation (base.map fun base => documentSamples base tabs) route group = .ok op)
    {kind name : String} {schema : Json} (h : op.ShowsParam kind name schema) :
    ∃ p, schema.SaysOf p ∧ ((kind = "pathParam" ∧ (name, p) ∈ route.params.path) ∨
      (kind = "queryParam" ∧ (name, p) ∈ route.params.query) ∨ (kind = "bodyParam" ∧ (name, p) ∈ route.params.body)) := by
  obtain ⟨hlist, hbody⟩ := operation_shows hsound hop
  cases h with
  | @listed kind location name entries entry schema hkind hentries hentry hlocation hname hschema =>
    obtain rfl : .arr (parameterList route) = entries := Option.some.inj (hlist.symm.trans hentries)
    have hplaces : kind = "pathParam" ∧ location = "path" ∨ kind = "queryParam" ∧ location = "query" := by
      simpa [Json.locations] using hkind
    obtain ⟨e, he, rfl⟩ | ⟨e, he, rfl⟩ | ⟨header, value, rfl⟩ := mem_parameterList hentry
    · obtain rfl : e.1 = name := Json.str.inj (Option.some.inj hname)
      obtain rfl := Option.some.inj hschema
      have hpath : "path" = location := Json.str.inj (Option.some.inj hlocation)
      refine ⟨e.2, ⟨rfl, rfl⟩, .inl ⟨?_, he⟩⟩
      rcases hplaces with ⟨hkind, -⟩ | ⟨-, hquery⟩
      · exact hkind
      · exact absurd (hpath.trans hquery) (by decide)
    · obtain rfl : e.1 = name := Json.str.inj (Option.some.inj hname)
      obtain rfl := Option.some.inj hschema
      have hquery : "query" = location := Json.str.inj (Option.some.inj hlocation)
      refine ⟨e.2, ⟨rfl, rfl⟩, .inr (.inl ⟨?_, he⟩)⟩
      rcases hplaces with ⟨-, hpath⟩ | ⟨hkind, -⟩
      · exact absurd (hquery.trans hpath) (by decide)
      · exact hkind
    · have hheader : "header" = location := Json.str.inj (Option.some.inj hlocation)
      rcases hplaces with ⟨-, hpath⟩ | ⟨-, hquery⟩
      · exact absurd (hheader.trans hpath) (by decide)
      · exact absurd (hheader.trans hquery) (by decide)
  | property hproperties hschema =>
    rw [hbody, bodySchema_properties] at hproperties
    split_ifs at hproperties
    obtain rfl := Option.some.inj hproperties
    obtain ⟨e, he, heq⟩ := List.mem_map.mp hschema
    obtain ⟨rfl, rfl⟩ := Prod.mk.inj heq
    exact ⟨e.2, ⟨rfl, rfl⟩, .inr (.inr ⟨rfl, he⟩)⟩

end Operation

/-! ## Documents -/

/-- What holds of the operations that routes make holds of all operations of their document. -/
theorem assemble_operations {P : Json → Prop} {config : Config} {sampler : Sampler} {routes : List Route} {manual : Json}
    (hop : ∀ route ∈ routes, ∀ group op, operation sampler route group = .ok op → P op)
    (h : assemble config sampler routes = .ok manual) : ∀ op ∈ manual.operations, P op := by
  obtain ⟨paths, hpaths, heq⟩ := of_bind_ok h
  obtain rfl := Except.ok.inj heq
  have heach := pathItems_each hop hpaths
  intro op hmem
  obtain ⟨item, hitem, hmem⟩ := List.mem_flatMap.mp hmem
  obtain ⟨entry, hentry, rfl⟩ := List.mem_map.mp hitem
  obtain ⟨operation, hoperation, rfl⟩ := List.mem_map.mp hmem
  exact heach entry hentry operation hoperation

/-- Every parameter that the document shows has a type of a manual and an example of that type, as a tag of
its kind says in the docstring of one of the records. -/
def Json.ParamsTyped (modules : Modules) (records : List RouteRecord) (manual : Json) : Prop :=
  ∀ op ∈ manual.operations, ∀ kind name schema, op.ShowsParam kind name schema →
    ∃ type value, schema.under? ["type"] = some (.str type) ∧ schema.under? ["example"] = some value ∧
      HasManualType type value ∧ ∃ record ∈ records, ∃ source, Documented modules record source ∧
        ∃ tag ∈ (Docstring.read? source.doc).tagsNamed kind, tag.Shows name type value

/-- The parameters in the document of a pass are typed, whatever its records and its generator. -/
theorem assembled_typed (modules : Modules) (records : List RouteRecord) (s : Session) (config : Config)
    (base : Option String) {manual : Json}
    (h : assemble config (base.map fun base => documentSamples base config.languageTabs)
      ((runPass modules records).run s).1.routes = .ok manual) :
    manual.ParamsTyped modules records := by
  have hruns := runs_runPass modules records s
  refine assemble_operations (fun route hroute group op hop kind name schema hshows => ?_) h
  obtain ⟨p, ⟨htype, hexample⟩, hparam⟩ := showsParam_operation (hruns.sound route hroute) hop hshows
  obtain ⟨record, hrecord, source, hdocumented, hpath, hquery, hbody⟩ := hruns.typed route hroute
  have htag : ∃ tag ∈ (Docstring.read? source.doc).tagsNamed kind, tag.Shows name p.type.manualName p.decoded := by
    rcases hparam with ⟨rfl, hmem⟩ | ⟨rfl, hmem⟩ | ⟨rfl, hmem⟩
    · exact hpath _ hmem
    · exact hquery _ hmem
    · exact hbody _ hmem
  obtain ⟨tag, hmem, hshown⟩ := htag
  exact ⟨_, _, htype, hexample, hshown.typed, record, hrecord, source, hdocumented, tag, hmem, hshown⟩

/-! ## A parameter in each place -/

namespace ThreePlaces

def modules : Modules :=
  [("shop", { attributes := [("edit", .function (some ("Edit.\n\n@pathParam id int Example: 7\n" ++
    "@queryParam tags list\n@bodyParam price double required Net. Example: 2.5")))] })]

def records : List RouteRecord :=
  [{ handler := .named "shop:edit", methods := ["PUT"], uri := "/orders/\x7bid\x7d" }]

def session : Session := { generator := .ofSeed 0 }

theorem paramsTyped_edit :
    ∃ manual, assemble {} none ((runPass modules records).run session).1.routes = .ok manual ∧
      (∃ op ∈ manual.operations, (∃ schema, op.ShowsParam "pathParam" "id" schema) ∧
        (∃ schema, op.ShowsParam "queryParam" "tags" schema) ∧ ∃ schema, op.ShowsParam "bodyParam" "price" schema) ∧
      manual.ParamsTyped modules records := by
  obtain ⟨manual, hmanual⟩ :
      ∃ manual, assemble {} none ((runPass modules records).run session).1.routes = .ok manual :=
    exists_of_isOk (by decide +kernel)
  have hshown : ∀ manual ∈ (assemble {} none ((runPass modules records).run session).1.routes).toOption,
      ∃ op ∈ manual.operations, (∃ schema, op.ShowsParam "pathParam" "id" schema) ∧
        (∃ schema, op.ShowsParam "queryParam" "tags" schema) ∧
          ∃ schema, op.ShowsParam "bodyParam" "price" schema := by decide +kernel
  exact ⟨manual, hmanual, hshown manual (mem_toOption.mpr hmanual),
    assembled_typed modules records session {} none hmanual⟩

end ThreePlaces

end ApiManual
