import ApiManual.Proofs.Param.Skeleton
import ApiManual.Proofs.Route.Steps
import ApiManual.Route.Describe

/-!
# What is read of a handler

Describing a route first reads its handler's docstring, which moves the generator and nothing else, and
then makes a call at most. `Findings` is what stands between the two.

* `Findings.read`: the parameters, resources and declared responses of a docstring.
* `Findings.callMethod?`: the method of the call that a route is due, if it is due one.
* `exec_readRoute`: describing a route in these terms.
-/

namespace ApiManual

/-! ## Parameters -/

/-- The parameters of a handler read with a generator, and the generator behind them. -/
def Params.read (doc : Docstring) (g : Generator) : Except Failure Params × Generator :=
  match paramsOf "pathParam" [] (doc.tagsNamed "pathParam") g with
  | (.error d, g) => (.error (.defect d), g)
  | (.ok path, g) => match paramsOf "queryParam" [] (doc.tagsNamed "queryParam") g with
    | (.error d, g) => (.error (.defect d), g)
    | (.ok query, g) => match paramsOf "bodyParam" [] (doc.tagsNamed "bodyParam") g with
      | (.error d, g) => (.error (.defect d), g)
      | (.ok body, g) =>
        (do
          checkNesting "queryParam" query
          checkNesting "bodyParam" body
          return { path, query, body }, g)

open Work

theorem exec_readParams (doc : Docstring) (s : Session) :
    exec (readParams doc) s =
      ((Params.read doc s.generator).1, s.drawn (Params.read doc s.generator).2) := by
  unfold readParams Params.read
  rw [exec_bind, exec_draw]
  rcases paramsOf "pathParam" [] (doc.tagsNamed "pathParam") s.generator with ⟨_ | path, g₁⟩
  · rfl
  simp only [mapError_ok]
  rw [exec_bind, exec_draw, Session.drawn_generator]
  rcases paramsOf "queryParam" [] (doc.tagsNamed "queryParam") g₁ with ⟨_ | query, g₂⟩
  · rfl
  simp only [mapError_ok]
  rw [exec_bind, exec_draw, Session.drawn_generator]
  rcases paramsOf "bodyParam" [] (doc.tagsNamed "bodyParam") g₂ with ⟨_ | body, g₃⟩
  · rfl
  simp only [mapError_ok]
  rw [exec_bind, exec_lift]
  cases checkNesting "queryParam" query with
  | error f => rfl
  | ok u =>
    simp only [exec_bind, exec_lift]
    cases checkNesting "bodyParam" body <;> rfl

/-! ## Findings -/

/-- What a docstring says of a route. -/
structure Findings where
  params : Params
  schemas : List ResourceSchema
  declared : List ResponseExample

namespace Findings

/-- Read a docstring with a generator, and give the generator behind its parameters. -/
def read (lookup : ResourceLookup) (doc : Docstring) (g : Generator) :
    Except Failure Findings × Generator :=
  match Params.read doc g with
  | (.error f, g) => (.error f, g)
  | (.ok params, g) => match ResourceSchema.ofTags lookup doc.tags with
    | .error f => (.error f, g)
    | .ok schemas => match declaredResponses doc.tags with
      | .error f => (.error f, g)
      | .ok declared => (.ok { params, schemas, declared }, g)

/-- The method of the call that a route is due: nothing stands in for the answer, and the policy allows
the first method. -/
def callMethod? (found : Findings) (record : RouteRecord) : Option String :=
  if found.declared = [] ∧ found.schemas = [] then
    record.documented.head?.filter record.rules.calls.allows
  else none

/-- The route with these responses; without any, the first resource stands in. -/
def route (found : Findings) (record : RouteRecord) (source : HandlerSource)
    (responses : List ResponseExample) : Route :=
  let doc := Docstring.read? source.doc
  let examples := match responses, found.schemas with
    | [], schema :: _ => [schema.response]
    | responses, _ => responses
  { id := routeId record.uri record.documented
    group := routeGroup source.doc source.ownerDoc
    title := doc.summary
    description := doc.details
    methods := record.documented
    uri := record.uri
    authenticated := doc.hasTag "authenticated"
    headers := documentedHeaders (doc.hasTag "authenticated") record.rules.headers
    params := found.params
    responses := examples
    showResponse := !examples.isEmpty
    schemas := found.schemas }

/-- The entry of the log about a handler that has been read. -/
def note (found : Findings) (source : HandlerSource) : LogEntry :=
  { level := .debug, source := .annotations, message := readNote source found.params found.schemas }

end Findings

/-! ## Describing a route -/

/-- The examples that a reply is worth: one or none. -/
def Reply.examples (reply : Reply) : List ResponseExample :=
  match reply.judge with
  | .ok e => [e]
  | .error _ => []

/-- The session after a call, with a warning if the reply is worth nothing. -/
def Session.probed (s : Session) (c : Call) : Session :=
  match (s.replyTo c).judge with
  | .ok _ => s.called c
  | .error reason => (s.called c).noted
      { level := .warning, source := .response, message := s!"Response call to {c.method} {c.url} {reason}" }

@[simp]
theorem Session.probed_calls (s : Session) (c : Call) : (s.probed c).calls = s.calls ++ [c] := by
  unfold Session.probed
  cases (s.replyTo c).judge <;> simp

theorem exec_callRoute (record : RouteRecord) (params : Params) (method : String) (s : Session) :
    exec (callRoute record params method) s = match callFor record params method with
      | .error f => (.error f, s)
      | .ok c => (.ok (s.replyTo c).examples, s.probed c) := by
  unfold callRoute
  rw [exec_bind, exec_lift]
  cases callFor record params method with
  | error f => rfl
  | ok c =>
    simp only [exec_bind, exec_call, Reply.examples, Session.probed]
    cases (s.replyTo c).judge with
    | ok e => rfl
    | error reason => rw [exec_bind, exec_log]; rfl

theorem exec_responsesFor (record : RouteRecord) (tags : List Tag) (params : Params)
    (schemas : List ResourceSchema) (s : Session) :
    exec (responsesFor record tags params schemas.isEmpty) s =
      match declaredResponses tags with
      | .error f => (.error f, s)
      | .ok declared => match ({ params, schemas, declared } : Findings).callMethod? record with
        | none => (.ok declared, s)
        | some method => exec (callRoute record params method) s := by
  unfold responsesFor
  rw [exec_bind, exec_lift]
  cases declaredResponses tags with
  | error f => rfl
  | ok declared =>
    simp only [Findings.callMethod?]
    by_cases hd : declared = [] ∧ schemas = []
    · obtain ⟨rfl, rfl⟩ := hd
      cases record.documented with
      | nil => rfl
      | cons method methods =>
        cases ha : record.rules.calls.allows method <;> simp [ha, Option.filter]
    · have hskip : (!declared.isEmpty || !schemas.isEmpty) = true := by
        cases declared <;> cases schemas <;> simp_all
      simp only [hd, hskip, if_true, if_false]
      rfl

/-- Describing a route before a defect is tied to the handler. -/
theorem exec_readRoute (lookup : ResourceLookup) (record : RouteRecord) (source : HandlerSource)
    (s : Session) :
    exec (readRoute lookup true record source) s =
      match Findings.read lookup (Docstring.read? source.doc) s.generator with
      | (.error f, g) => (.error f, s.drawn g)
      | (.ok found, g) => match found.callMethod? record with
        | none => (.ok (found.route record source found.declared), (s.drawn g).noted (found.note source))
        | some method => match callFor record found.params method with
          | .error f => (.error f, s.drawn g)
          | .ok c => (.ok (found.route record source ((s.drawn g).replyTo c).examples),
              ((s.drawn g).probed c).noted (found.note source)) := by
  unfold readRoute Findings.read
  simp only [exec_bind, exec_readParams]
  rcases Params.read (Docstring.read? source.doc) s.generator with ⟨_ | params, g⟩
  · rfl
  simp only [exec_lift]
  cases ResourceSchema.ofTags lookup (Docstring.read? source.doc).tags with
  | error f => rfl
  | ok schemas =>
    simp only [if_true]
    rw [exec_bind, exec_responsesFor]
    cases declaredResponses (Docstring.read? source.doc).tags with
    | error d => rfl
    | ok declared =>
      simp only
      cases Findings.callMethod? { params, schemas, declared } record with
      | none => simp only; rw [exec_bind, exec_log]; rfl
      | some method =>
        simp only [exec_callRoute]
        cases callFor record params method with
        | error f => rfl
        | ok c => simp only; rw [exec_bind, exec_log]; rfl

/-- A route that is described is made of what has been read of its handler, with some responses. -/
theorem exec_readRoute_ok {lookup : ResourceLookup} {record : RouteRecord} {source : HandlerSource}
    {s s' : Session} {route : Route} (h : exec (readRoute lookup true record source) s = (.ok route, s')) :
    ∃ found responses, (Findings.read lookup (Docstring.read? source.doc) s.generator).1 = .ok found ∧
      route = found.route record source responses := by
  rw [exec_readRoute] at h
  split at h
  · simp at h
  · rename_i found g hfound
    have hread : (Findings.read lookup (Docstring.read? source.doc) s.generator).1 = .ok found := by rw [hfound]
    split at h
    · exact ⟨found, _, hread, (Except.ok.inj (congrArg Prod.fst h)).symm⟩
    · split at h
      · simp at h
      · exact ⟨found, _, hread, (Except.ok.inj (congrArg Prod.fst h)).symm⟩

end ApiManual
