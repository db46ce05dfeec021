import ApiManual.Manual
import ApiManual.Proofs.Route.Reading

/-!
# When a live call is due

`DueCall` says from the record and its handler's docstring alone which routes are called:

* the handler is an identity that resolves, and it is not hidden;
* its parameter tags declare parameters, whose names expand together and whose values are not overlong;
* it declares no response and no resource;
* the policy allows the first method.

`Findings.due_iff`: these are the routes for which describing them comes to a call.
-/

namespace ApiManual

open Source

/-! ## Documented handlers -/

/-- The handler is an identity with this source, which is not hidden. -/
structure Documented (modules : Modules) (record : RouteRecord) (source : HandlerSource) : Prop where
  named : ∃ identity, record.handler = .named identity ∧ modules.handler identity = .ok (some source)
  shown : (Docstring.read? source.doc).isHidden = false

theorem documentable_eq_some_iff {modules : Modules} {record : RouteRecord} {source : HandlerSource} :
    documentable modules record = .ok (some source) ↔ Documented modules record source := by
  unfold documentable
  cases hr : record.handler with
  | inline | missing => exact ⟨fun h => by simp at h, fun ⟨⟨_, h, _⟩, _⟩ => by simp [hr] at h⟩
  | named identity =>
    simp only [bind, Except.bind, pure, Except.pure]
    constructor
    · intro h
      cases hm : modules.handler identity with
      | error f => simp [hm] at h
      | ok found =>
        simp only [hm, Except.ok.injEq, Option.filter_eq_some_iff] at h
        exact ⟨⟨identity, hr, by rw [hm, h.1]⟩, by simpa using h.2⟩
    · rintro ⟨⟨identity', hid, hm⟩, hshown⟩
      obtain rfl : identity = identity' := by simpa [hr] using hid
      simp [hm, Option.filter, hshown]

/-! ## Calls -/

theorem CallPolicy.allows_iff (policy : CallPolicy) (method : String) :
    policy.allows method = true ↔
      ∃ m ∈ policy.methods, upperString m = "*" ∨ upperString m = upperString method := by
  simp only [CallPolicy.allows, Bool.or_eq_true, List.contains_eq_mem, List.mem_map, decide_eq_true_eq]
  constructor
  · rintro (⟨m, hm, h⟩ | ⟨m, hm, h⟩)
    · exact ⟨m, hm, .inl h⟩
    · exact ⟨m, hm, .inr h⟩
  · rintro ⟨m, hm, h | h⟩
    · exact .inl ⟨m, hm, h⟩
    · exact .inr ⟨m, hm, h⟩

/-- A live call of a route under a method is due. -/
structure DueCall (modules : Modules) (record : RouteRecord) (source : HandlerSource)
    (method : String) : Prop where
  documented : Documented modules record source
  params : (Docstring.read? source.doc).ParamsRead
  noResponse : (Docstring.read? source.doc).tagsNamed "response" = []
  noResource : (Docstring.read? source.doc).tagsNamed "responseResource" = []
  first : record.documented.head? = some method
  allowed : ∃ m ∈ record.rules.calls.methods, upperString m = "*" ∨ upperString m = upperString method

namespace Findings

variable {lookup : ResourceLookup} {doc : Docstring}

/-- What has been read of a docstring is what each of its parts says. -/
theorem read_ok_iff {g : Generator} {found : Findings} :
    (read lookup doc g).1 = .ok found ↔ (Params.read doc g).1 = .ok found.params ∧
      ResourceSchema.ofTags lookup doc.tags = .ok found.schemas ∧
      declaredResponses doc.tags = .ok found.declared := by
  unfold read
  rcases Params.read doc g with ⟨f | params, g₁⟩
  · simp
  cases ResourceSchema.ofTags lookup doc.tags with
  | error f => simp
  | ok schemas =>
    cases declaredResponses doc.tags with
    | error d => simp
    | ok declared => cases found; simp

theorem declared_nil_iff {declared : List ResponseExample} (h : declaredResponses doc.tags = .ok declared) :
    declared = [] ↔ doc.tagsNamed "response" = [] := by
  have := (mapM_eq_ok_iff.mp h).length_eq
  rw [← List.length_eq_zero_iff, ← this, List.length_eq_zero_iff]
  rfl

theorem schemas_nil_iff {schemas : List ResourceSchema} (h : ResourceSchema.ofTags lookup doc.tags = .ok schemas) :
    schemas = [] ↔ doc.tagsNamed "responseResource" = [] := by
  have := (mapM_eq_ok_iff.mp h).length_eq
  rw [← List.length_eq_zero_iff, ← this, List.length_eq_zero_iff]
  rfl

theorem callMethod?_eq_some_iff {found : Findings} {record : RouteRecord} {method : String} :
    found.callMethod? record = some method ↔ found.declared = [] ∧ found.schemas = [] ∧
      record.documented.head? = some method ∧ record.rules.calls.allows method = true := by
  unfold callMethod?
  by_cases h : found.declared = [] ∧ found.schemas = []
  · rw [if_pos h, Option.filter_eq_some_iff]
    simp [h.1, h.2]
  · rw [if_neg h]
    exact ⟨fun h' => by simp at h', fun h' => absurd ⟨h'.1, h'.2.1⟩ h⟩

end Findings

/-- Reading a documented handler comes to a call iff one is due, with every generator. -/
theorem Findings.due_iff {modules : Modules} {record : RouteRecord} {source : HandlerSource}
    (hdoc : Documented modules record source) (method : String) (g : Generator) :
    DueCall modules record source method ↔
      ∃ found, (Findings.read modules.resource (Docstring.read? source.doc) g).1 = .ok found ∧
        found.callMethod? record = some method := by
  constructor
  · intro h
    obtain ⟨params, hparams⟩ := (Params.read_ok_iff _ g).mpr h.params
    have hresources : ResourceSchema.ofTags modules.resource (Docstring.read? source.doc).tags = .ok [] := by
      unfold ResourceSchema.ofTags
      rw [show List.filter _ _ = [] from h.noResource]
      rfl
    have hresponses : declaredResponses (Docstring.read? source.doc).tags = .ok [] := by
      unfold declaredResponses
      rw [show List.filter _ _ = [] from h.noResponse]
      rfl
    exact ⟨⟨params, [], []⟩, read_ok_iff.mpr ⟨hparams, hresources, hresponses⟩,
      callMethod?_eq_some_iff.mpr ⟨rfl, rfl, h.first, (CallPolicy.allows_iff _ _).mpr h.allowed⟩⟩
  · rintro ⟨found, hread, hmethod⟩
    obtain ⟨hparams, hresources, hresponses⟩ := read_ok_iff.mp hread
    obtain ⟨hdeclared, hschemas, hfirst, hallowed⟩ := callMethod?_eq_some_iff.mp hmethod
    exact ⟨hdoc, (Params.read_ok_iff _ g).mp ⟨_, hparams⟩, (declared_nil_iff hresponses).mp hdeclared,
      (schemas_nil_iff hresources).mp hschemas, hfirst, (CallPolicy.allows_iff _ _).mp hallowed⟩

end ApiManual
