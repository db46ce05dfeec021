import ApiManual.Proofs.Route.Sound

/-!
# Numbers in routes

A document takes numbers from a route's parameters, from its responses and from its resources.

* `Route.Each`: all of them have a property. `exec_readRoute_each`: they do if those of the findings and of the reply
  do.
* `exec_readRoute_short`: the integers of a route that is described are short.
* `exec_readRoute_finite`: its floats are finite if the texts that it is read of spell no other ones: the examples of
  its docstring and of its resources, and the answer to its call.
* `Docstring.FiniteExamples`, `Reply.Finite`: what is asked of these texts.
* `exec_readRoute_probe`: describing a route takes answers off the front of those that are there.
-/

namespace ApiManual

open Work

/-- If the text is JSON, all numbers in its value have the property. -/
def Reads (P : Json → Prop) (text : String) : Prop := ∀ v ∈ (Json.read text).toOption, v.Each P

instance (P : Json → Prop) [DecidablePred P] : DecidablePred (Reads P) :=
  fun text => inferInstanceAs (Decidable (∀ v ∈ (Json.read text).toOption, v.Each P))

/-- If the text is JSON, its value is finite. -/
abbrev ReadsFinite (text : String) : Prop := Reads (fun n => n.isFinite = true) text

/-- The numbers that a document takes from the route have the property. -/
structure Route.Each (P : Json → Prop) (route : Route) : Prop where
  path : ∀ entry ∈ route.params.path, entry.2.decoded.Each P
  query : ∀ entry ∈ route.params.query, entry.2.decoded.Each P
  body : ∀ entry ∈ route.params.body, entry.2.decoded.Each P
  responses : ∀ response ∈ route.responses, Reads P response.content
  schemas : ∀ schema ∈ route.schemas, schema.component.Each P

/-- What a document takes from the route is finite. -/
abbrev Route.Finite (route : Route) : Prop := route.Each fun n => n.isFinite = true

/-- The integers that a document takes from the route are short. -/
abbrev Route.Short (route : Route) : Prop := route.Each fun n => n.isLong = false

/-! ## Routes from what is found -/

/-- The numbers that have been found have the property, also in the responses that resources stand in with. -/
structure Findings.Each (P : Json → Prop) (found : Findings) : Prop where
  path : ∀ entry ∈ found.params.path, entry.2.decoded.Each P
  query : ∀ entry ∈ found.params.query, entry.2.decoded.Each P
  body : ∀ entry ∈ found.params.body, entry.2.decoded.Each P
  declared : ∀ response ∈ found.declared, Reads P response.content
  schemas : ∀ schema ∈ found.schemas, schema.component.Each P ∧ Reads P schema.response.content

section Each

variable {P : Json → Prop} {found : Findings} {lookup : ResourceLookup} {record : RouteRecord} {source : HandlerSource}

/-- The route takes its numbers from what has been found and from its responses. -/
theorem Findings.Each.route (h : found.Each P) {responses : List ResponseExample}
    (hresponses : ∀ response ∈ responses, Reads P response.content) : (found.route record source responses).Each P := by
  refine ⟨h.path, h.query, h.body, fun response hresponse => ?_, fun schema hschema => (h.schemas schema hschema).1⟩
  unfold Findings.route at hresponse
  rcases responses with _ | ⟨first, responses⟩
  · rcases hfound : found.schemas with _ | ⟨schema, schemas⟩
    · simp [hfound] at hresponse
    · obtain rfl : response = schema.response := by simpa [hfound] using hresponse
      exact (h.schemas schema (by simp [hfound])).2
  · exact hresponses response hresponse

theorem exec_readRoute_each {s s' : Session} {route : Route}
    (hfound : ∀ found, (Findings.read lookup (Docstring.read? source.doc) s.generator).1 = .ok found → found.Each P)
    (hreply : ∀ c, ∀ response ∈ (s.replyTo c).examples, Reads P response.content)
    (h : exec (readRoute lookup true record source) s = (.ok route, s')) : route.Each P := by
  rw [exec_readRoute] at h
  split at h
  · exact absurd (congrArg Prod.fst h) (by simp)
  · rename_i found g hread
    have heach := hfound found (by rw [hread])
    split at h
    · obtain rfl := Except.ok.inj (congrArg Prod.fst h)
      exact heach.route heach.declared
    · split at h
      · exact absurd (congrArg Prod.fst h) (by simp)
      · rename_i c hcall
        obtain rfl := Except.ok.inj (congrArg Prod.fst h)
        refine heach.route ?_
        rw [Session.drawn_replyTo]
        exact hreply c

end Each

/-- What tags of one kind declare has a property that each tag of the docstring gives. -/
theorem params_each {doc : Docstring} {kind : String} {P : Param → Prop} {g : Generator} {params : Entries Param}
    (htags : ∀ tag ∈ doc.tags, tag.name = kind → ∀ g name p, (Param.ofTag tag.content g).1 = .ok (name, p) → P p)
    (h : doc.params kind g = .ok params) : ∀ entry ∈ params, P entry.2 := by
  refine paramsOf_forall (P := fun e => P e.2) (by simp) (fun tag htag g name p hp => ?_) h
  obtain ⟨hmem, hname⟩ := List.mem_filter.mp htag
  exact htags tag hmem (beq_iff_eq.mp hname) g name p hp

/-! ## Short integers -/

theorem reads_short (text : String) : Reads (fun n => n.isLong = false) text :=
  fun _ hv => Json.readChars_short (mem_toOption.mp hv)

/-- A parameter is shown with short integers. -/
theorem Param.ofTag_short {content name : String} {g : Generator} {p : Param}
    (h : (Param.ofTag content g).1 = .ok (name, p)) : p.decoded.Short := by
  obtain ⟨parts, hparts, htype, ⟨hdrawn, -⟩ | htaken⟩ := Param.ofTag_cases h
  · rw [Param.decoded_eq, hdrawn]
    exact placeholder_short p.type g
  · obtain ⟨text, hcast⟩ := takeExample_cast htaken
    exact shown_each allRead_short (cast_each allRead_short hcast)

theorem Findings.read_short {lookup : ResourceLookup} {doc : Docstring} {g : Generator} {found : Findings}
    (h : (Findings.read lookup doc g).1 = .ok found) : found.Each fun n => n.isLong = false := by
  obtain ⟨hparams, hschemas, -⟩ := Findings.read_ok_iff.mp h
  obtain ⟨⟨g₁, g₂, hpath, hquery, hbody⟩, -, -⟩ := Params.of_read_ok hparams
  have hshort : ∀ kind, ∀ tag ∈ doc.tags, tag.name = kind → ∀ g name p,
      (Param.ofTag tag.content g).1 = .ok (name, p) → p.decoded.Short :=
    fun _ _ _ _ _ _ _ hp => Param.ofTag_short hp
  refine ⟨params_each (hshort _) hpath, params_each (hshort _) hquery, params_each (hshort _) hbody,
    fun response _ => reads_short response.content, fun schema hschema => ⟨?_, reads_short _⟩⟩
  obtain ⟨_, -, -, _, _, _, -, -, hsource⟩ := of_ofTags_ok hschemas schema hschema
  exact (ofSource_short hsource).1

/-- The integers of every route that is described are short, whatever the calls were answered. -/
theorem exec_readRoute_short {lookup : ResourceLookup} {record : RouteRecord} {source : HandlerSource}
    {s s' : Session} {route : Route} (h : exec (readRoute lookup true record source) s = (.ok route, s')) :
    route.Short :=
  exec_readRoute_each (fun _ => Findings.read_short) (fun _ response _ => reads_short response.content) h

/-! ## Texts that spell finite floats -/

/-- The example of a parameter tag as it is shown, if the tag has one. -/
def Tag.shown? (tag : Tag) : Option Json := do
  let parts ← (TagParts.ofContent tag.content).toOption
  let taken ← (takeExample parts.description (.normalize parts.type)).toOption
  return (ValueType.normalize parts.type).shown (← taken.2)

/-- The body that a response tag declares, if it is JSON. -/
def Tag.response? (tag : Tag) : Option String := (ResponseExample.ofContent tag.content).toOption.map (·.content)

/-- The source of the resource that a tag names, if there is one. -/
def Tag.resource? (lookup : ResourceLookup) (tag : Tag) : Option ResourceSource := do
  let named ← (resourceName tag.content).toOption
  (lookup named.2).toOption

/-- The examples of the docstring are finite, and so are those of the resources that it names. -/
structure Docstring.FiniteExamples (doc : Docstring) (lookup : ResourceLookup) : Prop where
  params : ∀ tag ∈ doc.tags, tag.name ∈ paramKinds → ∀ v ∈ tag.shown?, v.Finite
  responses : ∀ tag ∈ doc.tags, tag.name = "response" → ∀ body ∈ tag.response?, ReadsFinite body
  resources : ∀ tag ∈ doc.tags, tag.name = "responseResource" → ∀ source ∈ tag.resource? lookup, source.FiniteExamples

instance (doc : Docstring) (lookup : ResourceLookup) : Decidable (doc.FiniteExamples lookup) :=
  decidable_of_iff ((∀ tag ∈ doc.tags, tag.name ∈ Docstring.paramKinds → ∀ v ∈ tag.shown?, v.Finite) ∧
      (∀ tag ∈ doc.tags, tag.name = "response" → ∀ body ∈ tag.response?, ReadsFinite body) ∧
      ∀ tag ∈ doc.tags, tag.name = "responseResource" → ∀ source ∈ tag.resource? lookup, source.FiniteExamples)
    ⟨fun h => ⟨h.1, h.2.1, h.2.2⟩, fun h => ⟨h.params, h.responses, h.resources⟩⟩

/-- An answer reads as a finite value, if it is JSON. -/
def Reply.Finite : Reply → Prop
  | .answer _ text => ReadsFinite text
  | .failure _ => True

instance : DecidablePred Reply.Finite
  | .answer _ text => inferInstanceAs (Decidable (ReadsFinite text))
  | .failure _ => .isTrue trivial

/-- A tag whose example is finite declares a parameter that is shown as a finite value. -/
theorem Param.ofTag_finite {tag : Tag} (htag : ∀ v ∈ tag.shown?, v.Finite) {g : Generator} {name : String} {p : Param}
    (h : (Param.ofTag tag.content g).1 = .ok (name, p)) : p.decoded.Finite := by
  obtain ⟨parts, hparts, htype, ⟨hdrawn, -⟩ | htaken⟩ := Param.ofTag_cases h
  · rw [Param.decoded_eq, hdrawn]
    exact placeholder_finite p.type g
  · rw [htype] at htaken
    rw [Param.decoded_eq, htype]
    refine htag _ ?_
    unfold Tag.shown?
    rw [hparts]
    simp [Except.toOption, htaken]

section Docstring

variable {lookup : ResourceLookup} {doc : Docstring} (hdoc : doc.FiniteExamples lookup)

include hdoc

theorem declaredResponses_finite {declared : List ResponseExample}
    (h : declaredResponses doc.tags = .ok declared) : ∀ response ∈ declared, ReadsFinite response.content := by
  intro response hresponse
  obtain ⟨tag, htag, hcontent⟩ := exists_of_forall₂ (mapM_eq_ok_iff.mp h) hresponse
  obtain ⟨hmem, hname⟩ := List.mem_filter.mp htag
  refine hdoc.responses tag hmem (beq_iff_eq.mp hname) response.content ?_
  unfold Tag.response?
  rw [hcontent]
  rfl

theorem ofTags_finite {schemas : List ResourceSchema} (h : ResourceSchema.ofTags lookup doc.tags = .ok schemas) :
    ∀ schema ∈ schemas, schema.component.Finite ∧ ReadsFinite schema.response.content := by
  intro schema hschema
  obtain ⟨tag, hmem, hname, status, name, source, hresource, hlookup, hsource⟩ := of_ofTags_ok h schema hschema
  have hexamples : source.FiniteExamples := by
    refine hdoc.resources tag hmem hname source ?_
    unfold Tag.resource?
    rw [hresource]
    exact mem_toOption.mpr hlookup
  obtain ⟨hcomponent, hresponse⟩ := ofSource_finite hexamples hsource
  exact ⟨hcomponent, fun v hv => hresponse v (mem_toOption.mp hv)⟩

theorem Findings.read_finite {g : Generator} {found : Findings} (h : (Findings.read lookup doc g).1 = .ok found) :
    found.Each fun n => n.isFinite = true := by
  obtain ⟨hparams, hschemas, hdeclared⟩ := Findings.read_ok_iff.mp h
  obtain ⟨⟨g₁, g₂, hpath, hquery, hbody⟩, -, -⟩ := Params.of_read_ok hparams
  have hfinite : ∀ kind ∈ Docstring.paramKinds, ∀ tag ∈ doc.tags, tag.name = kind → ∀ g name p,
      (Param.ofTag tag.content g).1 = .ok (name, p) → p.decoded.Finite :=
    fun kind hkind tag htag hname _ _ _ hp => Param.ofTag_finite (hdoc.params tag htag (hname ▸ hkind)) hp
  exact ⟨params_each (hfinite _ (by decide)) hpath, params_each (hfinite _ (by decide)) hquery,
    params_each (hfinite _ (by decide)) hbody, declaredResponses_finite hdoc hdeclared, ofTags_finite hdoc hschemas⟩

end Docstring

/-! ## Answers -/

theorem examples_finite {reply : Reply} (h : reply.Finite) :
    ∀ response ∈ reply.examples, ReadsFinite response.content := by
  unfold Reply.examples
  cases hjudge : reply.judge with
  | error reason => simp
  | ok response =>
    have hcontent : ∃ status, reply = .answer status response.content := by
      unfold Reply.judge at hjudge
      split at hjudge
      · exact absurd hjudge (by simp)
      · rename_i status text
        split_ifs at hjudge
        obtain rfl := Except.ok.inj hjudge
        exact ⟨status, rfl⟩
    obtain ⟨status, rfl⟩ := hcontent
    exact List.forall_mem_singleton.mpr h

theorem replyTo_finite {s : Session} (h : ∀ reply ∈ s.probe, reply.Finite) (c : Call) : (s.replyTo c).Finite := by
  have hnext : s.nextReply.Finite := by
    unfold Session.nextReply Session.reply
    cases hprobe : s.probe with
    | nil => trivial
    | cons reply replies => exact h reply (by simp [hprobe])
  unfold Session.replyTo Reply.to
  split
  · trivial
  · exact hnext

theorem probed_probe (s : Session) (c : Call) : (s.probed c).probe = s.probe.tail := by
  unfold Session.probed
  cases (s.replyTo c).judge <;> rfl

/-- Describing a route takes answers off the front of those that are there. -/
theorem exec_readRoute_probe {lookup : ResourceLookup} {record : RouteRecord} {source : HandlerSource}
    {s s' : Session} {result : Except Failure Route}
    (h : exec (readRoute lookup true record source) s = (result, s')) : s'.probe <:+ s.probe := by
  rw [exec_readRoute] at h
  split at h
  · obtain rfl := (Prod.mk.inj h).2
    exact List.suffix_refl _
  · split at h
    · obtain rfl := (Prod.mk.inj h).2
      exact List.suffix_refl _
    · split at h
      · obtain rfl := (Prod.mk.inj h).2
        exact List.suffix_refl _
      · obtain rfl := (Prod.mk.inj h).2
        change (Session.probed _ _).probe <:+ s.probe
        rw [probed_probe]
        exact List.tail_suffix _

/-- A route is finite if its docstring, its resources and the answers to calls are. -/
theorem exec_readRoute_finite {lookup : ResourceLookup} {record : RouteRecord} {source : HandlerSource}
    {s s' : Session} {route : Route} (hdoc : (Docstring.read? source.doc).FiniteExamples lookup)
    (hprobe : ∀ reply ∈ s.probe, reply.Finite)
    (h : exec (readRoute lookup true record source) s = (.ok route, s')) : route.Finite :=
  exec_readRoute_each (fun _ => Findings.read_finite hdoc) (fun c => examples_finite (replyTo_finite hprobe c)) h

end ApiManual
