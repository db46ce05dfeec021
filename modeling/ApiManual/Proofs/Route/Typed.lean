import ApiManual.Proofs.Manual.Runs
import ApiManual.Proofs.Param.Typed
import ApiManual.Proofs.Route.Numbers

/-!
# Parameters of routes are typed

Every parameter of a route that a pass describes stands in a tag of its record's docstring, and is shown
with a value of its type.

* `Tag.Shows`: what a tag is shown as, with its example or with a placeholder.
* `Route.Typed`: all parameters of a route are shown by tags of their kinds.
-/

namespace ApiManual

open Source Work

/-! ## Tags -/

/-- The tag declares a parameter of this name, which is shown with this type and this example: the one that
its author wrote or, without one, a value that can be drawn for the type. -/
structure Tag.Shows (tag : Tag) (name type : String) (value : Json) : Prop where
  declares : ∃ g p, (Param.ofTag tag.content g).1 = .ok (name, p) ∧ type = p.type.manualName ∧ value = p.decoded
  typed : HasManualType type value
  written : ∀ v ∈ tag.shown?, value = v
  drawn : tag.shown? = none → Synthesized type value

/-- A tag is shown as the parameter that it declares. -/
theorem Tag.shows_of_ofTag {tag : Tag} {g : Generator} {name : String} {p : Param}
    (h : (Param.ofTag tag.content g).1 = .ok (name, p)) : tag.Shows name p.type.manualName p.decoded := by
  obtain ⟨parts, hparts, htype, hvalue⟩ := Param.ofTag_cases h
  have hnamed : p.type ∈ ValueType.named := htype ▸ ValueType.normalize_mem_named parts.type
  rw [Param.decoded_eq]
  rcases hvalue with ⟨hdrawn, htaken⟩ | htaken
  · have hnone : tag.shown? = none := by simp [Tag.shown?, hparts, ← htype, htaken, Except.toOption]
    have hsynthesized := placeholder_synthesized hnamed g
    rw [← hdrawn] at hsynthesized
    exact ⟨⟨g, p, h, rfl, rfl⟩, hsynthesized.hasManualType, by simp [hnone], fun _ => hsynthesized⟩
  · have hsome : tag.shown? = some (p.type.shown p.value) := by
      simp [Tag.shown?, hparts, ← htype, htaken, Except.toOption]
    obtain ⟨text, hcast⟩ := takeExample_cast htaken
    exact ⟨⟨g, p, h, rfl, rfl⟩, cast_hasManualType hnamed hcast, by simp [hsome], by simp [hsome]⟩

/-! ## Routes -/

/-- Each of the parameters is shown by a tag of this kind. -/
def Docstring.ShowsParams (doc : Docstring) (kind : String) (params : Entries Param) : Prop :=
  ∀ e ∈ params, ∃ tag ∈ doc.tagsNamed kind, tag.Shows e.1 e.2.type.manualName e.2.decoded

theorem Docstring.showsParams {doc : Docstring} {kind : String} {g : Generator} {params : Entries Param}
    (h : doc.params kind g = .ok params) : doc.ShowsParams kind params :=
  paramsOf_forall (by simp) (fun tag htag _ _ _ hp => ⟨tag, htag, Tag.shows_of_ofTag hp⟩) h

/-- The parameters of the route are shown by tags of the docstring of one of the records. -/
def Route.Typed (modules : Modules) (records : List RouteRecord) (route : Route) : Prop :=
  ∃ record ∈ records, ∃ source, Documented modules record source ∧
    (Docstring.read? source.doc).ShowsParams "pathParam" route.params.path ∧
    (Docstring.read? source.doc).ShowsParams "queryParam" route.params.query ∧
    (Docstring.read? source.doc).ShowsParams "bodyParam" route.params.body

theorem Runs.typed {modules : Modules} {records : List RouteRecord} {s s' : Session} {pass : Pass}
    (h : Runs modules records s pass s') : ∀ route ∈ pass.routes, route.Typed modules records := by
  refine h.forall_routes fun record hrecord s s' route hexec => ?_
  obtain ⟨source, s₁, hsource, hroute⟩ := exec_processRecord_described hexec
  obtain ⟨found, responses, hread, rfl⟩ := exec_readRoute_ok hroute
  obtain ⟨⟨g₁, g₂, hpath, hquery, hbody⟩, -, -⟩ := Params.of_read_ok (Findings.read_ok_iff.mp hread).1
  exact ⟨record, hrecord, source, documentable_eq_some_iff.mp hsource, Docstring.showsParams hpath,
    Docstring.showsParams hquery, Docstring.showsParams hbody⟩

end ApiManual
