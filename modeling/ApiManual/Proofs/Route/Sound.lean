import ApiManual.Proofs.Param.Shared
import ApiManual.Proofs.Resource.Numbers
import ApiManual.Proofs.Route.Due

/-!
# Sound routes

`Route.Sound` is what the document takes for granted of a route: its query and body hold scalars whose
names expand together, and its responses are JSON.

* `paramsOf_scalars`: tags declare scalars.
* `declaredResponses_isJson`, `judge_isJson`, `response_isJson`: a response is JSON, wherever it is from.
* `exec_readRoute_sound`: every route that is described is sound.
-/

namespace ApiManual

open Work

/-- The names of these scalars expand together. -/
structure Expandable (params : Entries Param) : Prop where
  scalars : Scalars params
  expand : ∃ values, expand params = .ok values

structure Route.Sound (route : Route) : Prop where
  query : Expandable route.params.query
  body : Expandable route.params.body
  responses : ∀ response ∈ route.responses, Json.isJson response.content = true

/-! ## Parameters -/

theorem cast_scalar {type : ValueType} {text : String} {v : Json} (h : type.cast text = .ok v) :
    v.isContainer = false := by
  unfold ValueType.cast at h
  split at h
  · obtain rfl := Except.ok.inj h
    rfl
  · split at h
    · obtain rfl := Except.ok.inj h
      rfl
    · simp at h
  · split at h
    · obtain rfl := Except.ok.inj h
      rfl
    · simp at h
  · split at h
    · obtain rfl := Except.ok.inj h
      rfl
    · simp at h
  · obtain rfl := Except.ok.inj h
    rfl

theorem placeholder_scalar (type : ValueType) (g : Generator) :
    (type.placeholder g).1.isContainer = false := by
  cases type <;> rfl

/-- An example is cast from a text. -/
theorem takeExample_cast {description rest : String} {type : ValueType} {v : Json}
    (h : takeExample description type = .ok (rest, some v)) : ∃ text, type.cast text = .ok v := by
  unfold takeExample at h
  split at h
  · simp at h
  · rename_i before after _
    cases hcast : type.cast (String.ofList (Text.trim after)) with
    | error d => simp [hcast, bind, Except.bind] at h
    | ok w =>
      obtain ⟨-, rfl⟩ : _ ∧ w = v := by simpa [hcast, bind, Except.bind] using h
      exact ⟨_, hcast⟩

/-- A parameter's value is the example of its tag, or it is drawn if the tag has none. -/
theorem Param.ofTag_cases {content name : String} {g : Generator} {p : Param}
    (h : (Param.ofTag content g).1 = .ok (name, p)) :
    ∃ parts, TagParts.ofContent content = .ok parts ∧ p.type = .normalize parts.type ∧
      (p.value = (p.type.placeholder g).1 ∧ takeExample parts.description p.type = .ok (p.description, none) ∨
        takeExample parts.description p.type = .ok (p.description, some p.value)) := by
  unfold Param.ofTag at h
  cases hparts : TagParts.ofContent content with
  | error d => simp [hparts] at h
  | ok parts =>
    refine ⟨parts, rfl, ?_⟩
    cases htaken : takeExample parts.description (.normalize parts.type) with
    | error d => simp [hparts, htaken] at h
    | ok taken =>
      obtain ⟨description, value?⟩ := taken
      simp only [hparts, htaken] at h
      cases value? with
      | none =>
        obtain ⟨-, rfl⟩ := Prod.mk.inj (Except.ok.inj h)
        dsimp only
        exact ⟨rfl, .inl ⟨rfl, htaken⟩⟩
      | some value =>
        obtain ⟨-, rfl⟩ := Prod.mk.inj (Except.ok.inj h)
        dsimp only
        exact ⟨rfl, .inr htaken⟩

/-- A tag declares a scalar. -/
theorem Param.ofTag_scalar {content name : String} {g : Generator} {p : Param}
    (h : (Param.ofTag content g).1 = .ok (name, p)) : p.value.isContainer = false := by
  obtain ⟨parts, -, -, ⟨hdrawn, -⟩ | htaken⟩ := Param.ofTag_cases h
  · rw [hdrawn]
    exact placeholder_scalar _ g
  · obtain ⟨text, hcast⟩ := takeExample_cast htaken
    exact cast_scalar hcast

/-- What each tag declares has a property that what tags declare together has. -/
theorem paramsOf_forall {P : String × Param → Prop} {kind : String} {params read : Entries Param}
    {tags : List Tag} {g : Generator} (hparams : ∀ e ∈ params, P e)
    (htags : ∀ tag ∈ tags, ∀ g name p, (Param.ofTag tag.content g).1 = .ok (name, p) → P (name, p))
    (h : (paramsOf kind params tags g).1 = .ok read) : ∀ e ∈ read, P e := by
  induction tags generalizing params g with
  | nil =>
    obtain rfl : params = read := by simpa [paramsOf] using h
    exact hparams
  | cons tag tags ih =>
    obtain ⟨htag, htags⟩ := List.forall_mem_cons.mp htags
    unfold paramsOf at h
    cases hread : Param.ofTag tag.content g with
    | mk declared g₁ =>
      rw [hread] at h
      cases declared with
      | error d => simp at h
      | ok entry =>
        obtain ⟨name, p⟩ := entry
        exact ih (Entries.forall_mem_set hparams (htag g name p (by rw [hread]))) htags h

theorem paramsOf_scalars {kind : String} {read : Entries Param} {tags : List Tag} {g : Generator}
    (h : (paramsOf kind [] tags g).1 = .ok read) : Scalars read :=
  paramsOf_forall (P := fun e => e.2.value.isContainer = false) (by simp)
    (fun _ _ _ _ _ => Param.ofTag_scalar) h

/-- What has been read of query and body can be expanded. -/
theorem Params.expandable_of_read {doc : Docstring} {g : Generator} {params : Params}
    (h : (Params.read doc g).1 = .ok params) : Expandable params.query ∧ Expandable params.body := by
  obtain ⟨⟨g₁, g₂, -, hquery, hbody⟩, ⟨query, hreadQuery⟩, body, hreadBody⟩ := Params.of_read_ok h
  exact ⟨⟨paramsOf_scalars hquery, query, (expandRead_ok_iff.mp hreadQuery).2⟩,
    ⟨paramsOf_scalars hbody, body, (expandRead_ok_iff.mp hreadBody).2⟩⟩

/-! ## Responses -/

theorem ofContent_isJson {content : String} {response : ResponseExample}
    (h : ResponseExample.ofContent content = .ok response) : Json.isJson response.content = true := by
  unfold ResponseExample.ofContent at h
  rcases takeStatus (Text.trim content.toList) with ⟨status, body⟩
  simp only at h
  split at h
  · simp at h
  · rename_i hread
    obtain rfl := Except.ok.inj h
    unfold Json.isJson Json.read
    rw [String.toList_ofList, hread]
    rfl

theorem declaredResponses_isJson {tags : List Tag} {declared : List ResponseExample}
    (h : declaredResponses tags = .ok declared) : ∀ response ∈ declared, Json.isJson response.content = true := by
  intro response hresponse
  obtain ⟨tag, -, htag⟩ := exists_of_forall₂ (mapM_eq_ok_iff.mp h) hresponse
  exact ofContent_isJson htag

theorem judge_isJson {reply : Reply} {response : ResponseExample} (h : reply.judge = .ok response) :
    Json.isJson response.content = true := by
  unfold Reply.judge at h
  split at h
  · simp at h
  · split at h
    · simp at h
    · split at h
      · rename_i hjson
        obtain rfl := Except.ok.inj h
        exact hjson
      · simp at h

theorem examples_isJson (reply : Reply) : ∀ response ∈ reply.examples, Json.isJson response.content = true := by
  unfold Reply.examples
  cases h : reply.judge with
  | error reason => simp
  | ok response => simpa using judge_isJson h

/-- The response that a resource stands in with is JSON, for its integers are short. -/
theorem response_isJson {lookup : ResourceLookup} {tags : List Tag} {schemas : List ResourceSchema}
    (h : ResourceSchema.ofTags lookup tags = .ok schemas) :
    ∀ schema ∈ schemas, Json.isJson schema.response.content = true := by
  intro schema hschema
  obtain ⟨_, -, -, _, _, _, -, -, hsource⟩ := of_ofTags_ok h schema hschema
  exact Json.isJson_compactAscii (ofSource_short hsource).2

/-! ## Routes -/

/-- A route is sound if its responses are JSON, and those that its resources stand in with anyway. -/
theorem Findings.route_sound {lookup : ResourceLookup} {doc : Docstring} {g : Generator} {found : Findings}
    (hread : (Findings.read lookup doc g).1 = .ok found) (record : RouteRecord) (source : HandlerSource)
    {responses : List ResponseExample} (h : ∀ response ∈ responses, Json.isJson response.content = true) :
    (found.route record source responses).Sound := by
  obtain ⟨hquery, hbody⟩ := Params.expandable_of_read (Findings.read_ok_iff.mp hread).1
  refine ⟨hquery, hbody, ?_⟩
  intro response hresponse
  unfold Findings.route at hresponse
  rcases responses with _ | ⟨first, responses⟩
  · rcases hschemas : found.schemas with _ | ⟨schema, schemas⟩
    · simp [hschemas] at hresponse
    · obtain rfl : response = schema.response := by simpa [hschemas] using hresponse
      exact response_isJson (Findings.read_ok_iff.mp hread).2.1 schema (by simp [hschemas])
  · exact h response hresponse

/-- Every route that is described is sound, whatever the calls were answered. -/
theorem exec_readRoute_sound {lookup : ResourceLookup} {record : RouteRecord} {source : HandlerSource}
    {s s' : Session} {route : Route} (h : exec (readRoute lookup true record source) s = (.ok route, s')) :
    route.Sound := by
  rw [exec_readRoute] at h
  split at h
  · simp at h
  · rename_i found g hfound
    have hread : (Findings.read lookup (Docstring.read? source.doc) s.generator).1 = .ok found := by rw [hfound]
    split at h
    · obtain rfl := Except.ok.inj (congrArg Prod.fst h)
      exact Findings.route_sound hread record source (declaredResponses_isJson (Findings.read_ok_iff.mp hread).2.2)
    · split at h
      · simp at h
      · obtain rfl := Except.ok.inj (congrArg Prod.fst h)
        exact Findings.route_sound hread record source (examples_isJson _)

end ApiManual
