import ApiManual.Proofs.Route.Bodies
import ApiManual.Proofs.Route.Numbers

/-!
# Routes with other placeholders

Sessions that are answered alike describe a record alike, except for the placeholders that each draws from
its own generator.

* `Tag.Redraws`: what may differ of a parameter, and only if its tag has no example.
* `Route.Redrawn`: two routes of one handler that differ in nothing else.
* `exec_readRoute_redrawn`: a handler read in two sessions fails alike, or gives such routes.
* `exec_readRoute_agree`: where the generators agree as well, the routes are the same.
-/

namespace ApiManual

open Work

/-! ## Parameters -/

/-- Two entries of one tag: the same one or, without an example, each with a placeholder of its own. -/
inductive Tag.Redraws (tag : Tag) : String × Param → String × Param → Prop where
  | same (entry : String × Param) : Redraws tag entry entry
  | drawn {name : String} {p : Param} (noExample : tag.shown? = none) (g g' : Generator) :
      Redraws tag (name, { p with value := (p.type.placeholder g).1 })
        (name, { p with value := (p.type.placeholder g').1 })

/-- Two entries that one tag of this kind declares, with perhaps other placeholders. -/
def Docstring.Redraws (doc : Docstring) (kind : String) (e f : String × Param) : Prop :=
  ∃ tag ∈ doc.tagsNamed kind, tag.Redraws e f

/-- Parameters of one docstring that differ at most in their placeholders. -/
structure Params.Redrawn (doc : Docstring) (params others : Params) : Prop where
  path : List.Forall₂ (doc.Redraws "pathParam") params.path others.path
  query : List.Forall₂ (doc.Redraws "queryParam") params.query others.query
  body : List.Forall₂ (doc.Redraws "bodyParam") params.body others.body

theorem Tag.Redraws.alike {tag : Tag} {e f : String × Param} (h : tag.Redraws e f) : AlikeEntries e f := by
  cases h with
  | same => exact ⟨rfl, .refl _⟩
  | drawn _ g g' => exact ⟨rfl, placeholder_alike _ _ _ g g'⟩

theorem Docstring.Redraws.alike {doc : Docstring} {kind : String} {e f : String × Param}
    (h : doc.Redraws kind e f) : AlikeEntries e f := by
  obtain ⟨tag, -, h⟩ := h
  exact h.alike

/-- A tag read with two generators fails alike, or declares the same with perhaps other placeholders. -/
theorem Param.ofTag_redraws (tag : Tag) (g g' : Generator) :
    SameOutcome tag.Redraws (Param.ofTag tag.content g).1 (Param.ofTag tag.content g').1 := by
  unfold Param.ofTag
  cases hparts : TagParts.ofContent tag.content with
  | error d => exact .error d
  | ok parts =>
    cases htaken : takeExample parts.description (.normalize parts.type) with
    | error d => simp only [htaken]; exact .error d
    | ok taken =>
      obtain ⟨description, value?⟩ := taken
      cases value? with
      | some value => simp only [htaken]; exact .ok (.same _)
      | none =>
        have hnone : tag.shown? = none := by
          unfold Tag.shown?
          simp [hparts, htaken, Except.toOption]
        simp only [htaken]
        exact .ok (.drawn (p := { type := .normalize parts.type, description, required := parts.required }) hnone g g')

theorem Docstring.params_redraws (doc : Docstring) (kind : String) (g g' : Generator) :
    SameOutcome (List.Forall₂ (doc.Redraws kind)) (doc.params kind g) (doc.params kind g') := by
  refine paramsOf_related (fun _ _ h => h.alike.1) kind .nil (fun tag htag g g' => ?_) g g'
  exact (Param.ofTag_redraws tag g g').imp fun _ _ h => ⟨tag, htag, h⟩

theorem checkNesting_alike (kind : String) {params others : Entries Param}
    (h : List.Forall₂ AlikeEntries params others) : checkNesting kind params = checkNesting kind others := by
  have hexpand := expandRead_alike h
  unfold checkNesting
  generalize expandRead params = x at hexpand ⊢
  generalize expandRead others = y at hexpand ⊢
  cases hexpand <;> rfl

/-- Parameters are read alike with two generators. -/
theorem Params.read_redrawn (doc : Docstring) (g g' : Generator) :
    SameOutcome (Params.Redrawn doc) (Params.read doc g).1 (Params.read doc g').1 := by
  have hkind : ∀ kind g g', SameOutcome (List.Forall₂ (doc.Redraws kind))
      (paramsOf kind [] (doc.tagsNamed kind) g).1 (paramsOf kind [] (doc.tagsNamed kind) g').1 :=
    fun kind g g' => doc.params_redraws kind g g'
  unfold Params.read
  have hpath := hkind "pathParam" g g'
  generalize paramsOf "pathParam" [] (doc.tagsNamed "pathParam") g = x at hpath ⊢
  generalize paramsOf "pathParam" [] (doc.tagsNamed "pathParam") g' = y at hpath ⊢
  obtain ⟨path, g₁⟩ := x
  obtain ⟨path', g₁'⟩ := y
  cases hpath with
  | error d => exact .error _
  | ok hpath =>
  have hquery := hkind "queryParam" g₁ g₁'
  simp only
  generalize paramsOf "queryParam" [] (doc.tagsNamed "queryParam") g₁ = x at hquery ⊢
  generalize paramsOf "queryParam" [] (doc.tagsNamed "queryParam") g₁' = y at hquery ⊢
  obtain ⟨query, g₂⟩ := x
  obtain ⟨query', g₂'⟩ := y
  cases hquery with
  | error d => exact .error _
  | ok hquery =>
  have hbody := hkind "bodyParam" g₂ g₂'
  simp only
  generalize paramsOf "bodyParam" [] (doc.tagsNamed "bodyParam") g₂ = x at hbody ⊢
  generalize paramsOf "bodyParam" [] (doc.tagsNamed "bodyParam") g₂' = y at hbody ⊢
  obtain ⟨body, g₃⟩ := x
  obtain ⟨body', g₃'⟩ := y
  cases hbody with
  | error d => exact .error _
  | ok hbody =>
  simp only [checkNesting_alike _ (hquery.imp fun _ _ h => h.alike), checkNesting_alike _ (hbody.imp fun _ _ h => h.alike)]
  cases checkNesting "queryParam" _ with
  | error f => exact .error f
  | ok u =>
    cases checkNesting "bodyParam" _ with
    | error f => exact .error f
    | ok u => exact .ok ⟨hpath, hquery, hbody⟩

/-! ## Findings -/

/-- Findings of one docstring that differ at most in placeholders. -/
structure Findings.Redrawn (doc : Docstring) (found other : Findings) : Prop where
  params : Params.Redrawn doc found.params other.params
  schemas : found.schemas = other.schemas
  declared : found.declared = other.declared

/-- Two routes of one docstring that differ at most in placeholders. -/
structure Route.Redrawn (doc : Docstring) (route other : Route) : Prop where
  params : Params.Redrawn doc route.params other.params
  rest : other = { route with params := other.params }

namespace Findings

variable {doc : Docstring} {found other : Findings}

theorem read_redrawn (lookup : ResourceLookup) (doc : Docstring) (g g' : Generator) :
    SameOutcome (Findings.Redrawn doc) (Findings.read lookup doc g).1 (Findings.read lookup doc g').1 := by
  unfold Findings.read
  have hparams := Params.read_redrawn doc g g'
  generalize Params.read doc g = x at hparams ⊢
  generalize Params.read doc g' = y at hparams ⊢
  obtain ⟨params, g₁⟩ := x
  obtain ⟨params', g₁'⟩ := y
  cases hparams with
  | error f => exact .error f
  | ok hparams =>
    simp only
    cases ResourceSchema.ofTags lookup doc.tags with
    | error f => exact .error f
    | ok schemas =>
      cases declaredResponses doc.tags with
      | error d => exact .error _
      | ok declared => exact .ok ⟨hparams, rfl, rfl⟩

theorem Redrawn.callMethod?_eq (h : Redrawn doc found other) (record : RouteRecord) :
    found.callMethod? record = other.callMethod? record := by
  unfold callMethod?
  rw [h.schemas, h.declared]

theorem Redrawn.route (h : Redrawn doc found other) (record : RouteRecord) (source : HandlerSource)
    (responses : List ResponseExample) :
    (found.route record source responses).Redrawn doc (other.route record source responses) := by
  refine ⟨h.params, ?_⟩
  unfold Findings.route
  simp only [h.schemas]

end Findings

/-- Calls for parameters that have been read fail alike, or the same is in the way of their bodies. -/
theorem callFor_alike {doc : Docstring} {g g' : Generator} {params others : Params}
    (h : (Params.read doc g).1 = .ok params) (h' : (Params.read doc g').1 = .ok others) (record : RouteRecord)
    (method : String) :
    SameOutcome (fun c c' => c.flaw? = c'.flaw?) (callFor record params method) (callFor record others method) := by
  obtain ⟨⟨_, _, -, -, hparams⟩, ⟨query, hquery⟩, body, hbody⟩ := Params.of_read_ok h
  obtain ⟨⟨_, _, -, -, hparams'⟩, ⟨query', hquery'⟩, body', hbody'⟩ := Params.of_read_ok h'
  have halike := Docstring.expand_params_alike hparams hparams'
  rw [hbody, hbody'] at halike
  cases halike with
  | ok hskeletons =>
    have hflaw := bodyFlaw?_alike hskeletons record.rules.calls.body
    have hwordless : record.Wordless method body ↔ record.Wordless method body' := by
      unfold RouteRecord.Wordless
      rw [hflaw]
    rw [callFor_eq hquery hbody, callFor_eq hquery' hbody']
    simp only [hwordless]
    split
    · exact .error _
    · refine .ok ?_
      rw [flaw?_call, flaw?_call, hflaw]

/-- How a call comes out hangs on what is in the way of its body and on nothing else of the call. -/
theorem Reply.to_congr (reply : Reply) {c c' : Call} (h : c.flaw? = c'.flaw?) : reply.to c = reply.to c' := by
  unfold Reply.to
  rw [h]

/-! ## Two sessions -/

section Sessions

variable {s t : Session} (lookup : ResourceLookup) (record : RouteRecord) (source : HandlerSource)

theorem probed_generator (s : Session) (c : Call) : (s.probed c).generator = s.generator := by
  unfold Session.probed
  cases (s.replyTo c).judge <;> rfl

/-- Sessions with the same answers left read a handler alike, and have the same answers left afterwards. -/
theorem exec_readRoute_redrawn (h : s.probe = t.probe) :
    SameOutcome (Route.Redrawn (Docstring.read? source.doc)) (exec (readRoute lookup true record source) s).1
        (exec (readRoute lookup true record source) t).1 ∧
      (exec (readRoute lookup true record source) s).2.probe =
        (exec (readRoute lookup true record source) t).2.probe := by
  rw [exec_readRoute, exec_readRoute]
  have hfound := Findings.read_redrawn lookup (Docstring.read? source.doc) s.generator t.generator
  cases hread : Findings.read lookup (Docstring.read? source.doc) s.generator with
  | mk x g =>
  cases hread' : Findings.read lookup (Docstring.read? source.doc) t.generator with
  | mk y g' =>
  have hx : (Findings.read lookup (Docstring.read? source.doc) s.generator).1 = x := by rw [hread]
  have hy : (Findings.read lookup (Docstring.read? source.doc) t.generator).1 = y := by rw [hread']
  rw [hx, hy] at hfound
  cases hfound with
  | error f => exact ⟨.error f, h⟩
  | @ok found other hfound =>
    simp only [hfound.callMethod?_eq record, hfound.declared]
    cases other.callMethod? record with
    | none => exact ⟨.ok (hfound.route record source _), h⟩
    | some method =>
      have hcall := callFor_alike (Findings.read_ok_iff.mp hx).1 (Findings.read_ok_iff.mp hy).1 record method
      simp only
      generalize callFor record found.params method = x at hcall ⊢
      generalize callFor record other.params method = y at hcall ⊢
      cases hcall with
      | error f => exact ⟨.error f, h⟩
      | @ok c c' hflaw =>
        have hreply : (s.drawn g).replyTo c = (t.drawn g').replyTo c' :=
          (Session.replyTo_congr (s := s.drawn g) (t := t.drawn g') h c).trans (Reply.to_congr _ hflaw)
        simp only [hreply]
        refine ⟨.ok (hfound.route record source _), ?_⟩
        change (Session.probed _ _).probe = (Session.probed _ _).probe
        rw [probed_probe, probed_probe]
        exact congrArg List.tail h

/-- Sessions in which records are read alike: their generators agree, and so do the answers left. -/
structure Session.Agree (s t : Session) : Prop where
  generator : s.generator = t.generator
  probe : s.probe = t.probe

/-- Sessions that agree read a handler in the same way, and agree afterwards. -/
theorem exec_readRoute_agree (h : s.Agree t) :
    (exec (readRoute lookup true record source) s).1 = (exec (readRoute lookup true record source) t).1 ∧
      (exec (readRoute lookup true record source) s).2.Agree (exec (readRoute lookup true record source) t).2 := by
  rw [exec_readRoute, exec_readRoute, h.generator]
  rcases Findings.read lookup (Docstring.read? source.doc) t.generator with ⟨f | found, g⟩
  · exact ⟨rfl, rfl, h.probe⟩
  simp only
  cases found.callMethod? record with
  | none => exact ⟨rfl, rfl, h.probe⟩
  | some method =>
    simp only
    cases callFor record found.params method with
    | error f => exact ⟨rfl, rfl, h.probe⟩
    | ok c =>
      have hreply : (s.drawn g).replyTo c = (t.drawn g).replyTo c :=
        Session.replyTo_congr (s := s.drawn g) (t := t.drawn g) h.probe c
      refine ⟨by simp only [hreply], ?_, ?_⟩
      · change (Session.probed _ _).generator = (Session.probed _ _).generator
        rw [probed_generator, probed_generator]
        rfl
      · change (Session.probed _ _).probe = (Session.probed _ _).probe
        rw [probed_probe, probed_probe]
        exact congrArg List.tail h.probe

end Sessions

end ApiManual
