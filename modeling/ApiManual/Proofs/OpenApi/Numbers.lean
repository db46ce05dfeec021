import ApiManual.Proofs.OpenApi.Sound
import ApiManual.Proofs.Route.Numbers

/-!
# Numbers in documents

A document shows nothing but texts, truth values and what it takes from its routes. Its numbers have a property if those
of the routes and of their samples have it (`assemble_each`); samples are texts (`documentSamples_eachFor`).
-/

namespace ApiManual

variable {P : Json → Prop}

/-! ## Parameters and responses -/

section Params

variable {params : Entries Param} (h : ∀ entry ∈ params, entry.2.decoded.Each P)

include h

theorem bodySchema_each : (bodySchema params).Each P := by
  have hproperties : (Json.obj (params.map fun entry => (entry.1, Json.obj [("type", .str entry.2.type.manualName),
      ("example", entry.2.decoded), ("description", .str entry.2.description)]))).Each P :=
    Json.each_obj.mpr (List.forall_mem_map.mpr fun entry hentry => by simpa using h entry hentry)
  have hexample : (Json.obj (params.map fun entry => (entry.1, entry.2.decoded))).Each P :=
    Json.each_obj.mpr (List.forall_mem_map.mpr h)
  unfold bodySchema
  refine Json.each_obj.mpr (List.forall_mem_append.mpr ⟨List.forall_mem_append.mpr ⟨by simp, ?_⟩, ?_⟩)
  · split
    · simp
    · exact List.forall_mem_singleton.mpr (textList_each _)
  · split
    · simp
    · exact List.forall_mem_cons.mpr ⟨hproperties, List.forall_mem_singleton.mpr hexample⟩

theorem paramEntries_each (location : String) (required : Param → Bool) :
    ∀ item ∈ params.map (fun entry => paramEntry location (required entry.2) entry.1 entry.2), item.Each P := by
  refine List.forall_mem_map.mpr fun entry hentry => ?_
  simpa [paramEntry] using h entry hentry

end Params

theorem parameterList_each {route : Route} (h : route.Each P) : ∀ item ∈ parameterList route, item.Each P := by
  unfold parameterList
  refine List.forall_mem_append.mpr ⟨List.forall_mem_append.mpr ⟨?_, ?_⟩, ?_⟩
  · exact paramEntries_each h.path "path" fun _ => true
  · exact paramEntries_each h.query "query" Param.required
  · exact List.forall_mem_map.mpr fun header _ => by simp [headerEntry]

theorem responseEntries_each {route : Route} (h : route.Each P) {entries : Json}
    (hentries : responseEntries route = .ok entries) : entries.Each P := by
  unfold responseEntries at hentries
  cases hresponses : route.responses with
  | nil =>
    rw [hresponses] at hentries
    obtain rfl := Except.ok.inj hentries
    simp
  | cons first others =>
    cases hread : Json.read first.content with
    | error e =>
      simp only [hresponses, hread] at hentries
      exact absurd hentries (by simp [bind, Except.bind, throw, throwThe, MonadExceptOf.throw])
    | ok v =>
      simp only [hresponses, hread] at hentries
      obtain rfl := Except.ok.inj hentries
      simpa using h.responses first (by simp [hresponses]) v (mem_toOption.mpr hread)

/-! ## Operations -/

/-- The numbers in the samples of the route have the property, and so have those of the route that they leave. -/
def Sampler.EachFor (P : Json → Prop) (sampler : Sampler) (route : Route) : Prop :=
  ∀ entries route', sampleEntry sampler route = .ok (entries, route') →
    (∀ field ∈ entries, field.2.Each P) ∧ route'.Each P

section Operation

variable {sampler : Sampler} {route : Route}

theorem operation_each (h : route.Each P) (hsampler : sampler.EachFor P route) {group : String} {op : Json}
    (hop : operation sampler route group = .ok op) : op.Each P := by
  unfold operation at hop
  obtain ⟨responses, hresponses, hop⟩ := of_bind_ok hop
  obtain ⟨⟨samples, route'⟩, hsamples, hop⟩ := of_bind_ok hop
  obtain ⟨hentries, hroute⟩ := hsampler samples route' hsamples
  obtain rfl := Except.ok.inj hop
  have hparameters := parameterList_each hroute
  have hfound := responseEntries_each h hresponses
  have hbody := bodySchema_each hroute.body
  simp only [Json.each_obj, List.forall_mem_append]
  refine ⟨⟨⟨⟨?_, ?_⟩, ?_⟩, ?_⟩, ?_⟩
  · split <;> simp
  · simp [textList]
  · split
    · simpa using hbody
    · simp
  · simpa using ⟨hparameters, hfound⟩
  · exact hentries

end Operation

/-! ## The whole -/

section Document

variable {sampler : Sampler} {routes : List Route} (hroutes : ∀ route ∈ routes, route.Each P)

include hroutes

theorem pathItems_numbers (hsampler : ∀ route ∈ routes, sampler.EachFor P route) {paths : PathItems}
    (h : pathItems sampler routes = .ok paths) : paths.Each (Json.Each P) :=
  pathItems_each (fun route hroute _ _ => operation_each (hroutes route hroute) (hsampler route hroute)) h

theorem schemaComponents_each (groups : List String) :
    ∀ entry ∈ schemaComponents groups routes, entry.2.Each P := by
  refine Entries.forall_ofPairs fun pair hpair => ?_
  obtain ⟨route, hroute, hschemas⟩ := List.mem_flatMap.mp hpair
  obtain ⟨schema, hschema, rfl⟩ := List.mem_map.mp hschemas
  exact (hroutes route (List.mem_filter.mp hroute).1).schemas schema hschema

/-- The numbers in a document have the property if those of its routes and of their samples have it. -/
theorem assemble_each (config : Config) (hsampler : ∀ route ∈ routes, sampler.EachFor P route) {manual : Json}
    (h : assemble config sampler routes = .ok manual) : manual.Each P := by
  obtain ⟨paths, hpaths, heq⟩ := of_bind_ok h
  obtain rfl := Except.ok.inj heq
  have hitems : ∀ item ∈ paths.map (fun item => (item.1, Json.obj item.2)), item.2.Each P :=
    List.forall_mem_map.mpr fun item hitem => Json.each_obj.mpr (pathItems_numbers hroutes hsampler hpaths item hitem)
  have hschemas := Json.each_obj.mpr (schemaComponents_each hroutes config.schemaGroups)
  have hinfo : (documentInfo config).Each P := by simp [documentInfo]
  have hsecurity : securitySchemes.Each P := by simp [securitySchemes]
  have hservers : (Json.arr (config.servers.map fun server =>
      .obj [("url", .str server.url), ("description", .str server.description)])).Each P := by simp
  have hcomponents : (Json.obj [("securitySchemes", securitySchemes),
      ("schemas", .obj (schemaComponents config.schemaGroups routes))]).Each P :=
    Json.each_obj.mpr (List.forall_mem_cons.mpr ⟨hsecurity, List.forall_mem_singleton.mpr hschemas⟩)
  refine Json.each_obj.mpr ?_
  simp only [List.forall_mem_cons]
  exact ⟨Json.each_str _, hinfo, hcomponents, hservers, Json.each_obj.mpr hitems, by simp⟩

end Document

/-! ## Samples -/

theorem sampleList_each (tabs : Entries String) (sources : List String) :
    ∀ item ∈ List.zipWith (fun (_, name) source => Json.obj [("lang", .str name), ("source", .str source)])
      tabs sources, item.Each P := by
  induction tabs generalizing sources with
  | nil => simp
  | cons tab tabs ih =>
    cases sources with
    | nil => simp
    | cons source sources => exact List.forall_mem_cons.mpr ⟨by simp, ih sources⟩

/-- The samples of a sound route are texts, and they leave the route as it is. -/
theorem documentSamples_eachFor {route : Route} (hsound : route.Sound) (h : route.Each P)
    (base : Option String) (tabs : Entries String) :
    Sampler.EachFor P (base.map fun base => documentSamples base tabs) route := by
  intro entries route' hentry
  obtain ⟨rfl, rfl | ⟨sources, rfl⟩⟩ := sampleEntry_sound hsound hentry
  · exact ⟨by simp, h⟩
  · exact ⟨List.forall_mem_singleton.mpr (Json.each_arr.mpr (sampleList_each tabs sources)), h⟩

end ApiManual
