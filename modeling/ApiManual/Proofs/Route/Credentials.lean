import ApiManual.Proofs.Entries
import ApiManual.Proofs.Manual.Runs
import ApiManual.Proofs.Route.Bodies
import ApiManual.Proofs.Route.Due

/-!
# Credentials of routes that need none

A handler without an authenticated tag has the header `Authorization` left out of its route. Where no
call is made, its value then shows nowhere (`describeRoute_credentials`): not in the route, not in the
session, and so not in the operation.

The header goes by its exact name. Under any other spelling of that name it is one of the headers that
an operation lists with their values (`headerEntry_mem_parameterList`).
-/

namespace ApiManual

open Source Work

/-! ## Headers -/

/-- What the headers of a route tell of one of them: nothing of the credentials where none are needed,
and all of any other. -/
theorem documentedHeaders_set_eq_iff (headers : Entries String) (name value value' : String) :
    documentedHeaders false (headers.set name value) = documentedHeaders false (headers.set name value') ↔
      name = "Authorization" ∨ value = value' := by
  constructor
  · intro h
    by_cases hname : name = "Authorization"
    · exact .inl hname
    · have hget := congrArg (Entries.get? · name) h
      simp only [documentedHeaders, Bool.false_eq_true, if_false, Entries.get?_erase _ hname,
        Entries.get?_set, if_true, Option.some.injEq] at hget
      exact .inr hget
  · rintro (rfl | rfl)
    · simp [documentedHeaders, Entries.erase_set]
    · rfl

/-! ## Records that differ in one header -/

/-- The record with a header of its rules set to a value. -/
def RouteRecord.withHeader (record : RouteRecord) (name value : String) : RouteRecord :=
  { record with rules := { record.rules with headers := record.rules.headers.set name value } }

/-- A call has the body that it has whatever the header holds. -/
theorem RouteRecord.wordless_withHeader (record : RouteRecord) (name value method : String) (body : Entries Json) :
    (record.withHeader name value).Wordless method body ↔ record.Wordless method body := Iff.rfl

theorem Findings.route_withHeader (found : Findings) (record : RouteRecord) (source : HandlerSource)
    (responses : List ResponseExample) (name value : String) :
    found.route (record.withHeader name value) source responses =
      { found.route record source responses with
        headers := documentedHeaders ((Docstring.read? source.doc).hasTag "authenticated")
          (record.rules.headers.set name value) } := rfl

theorem Findings.route_withHeader_eq_iff (found : Findings) (record : RouteRecord) {source : HandlerSource}
    (hauth : (Docstring.read? source.doc).hasTag "authenticated" = false) (responses : List ResponseExample)
    (name value value' : String) :
    found.route (record.withHeader name value) source responses =
        found.route (record.withHeader name value') source responses ↔
      name = "Authorization" ∨ value = value' := by
  rw [← documentedHeaders_set_eq_iff record.rules.headers, route_withHeader, route_withHeader, hauth]
  exact ⟨congrArg Route.headers, fun h => by rw [h]⟩

/-- Describing a route without looking for responses. -/
theorem exec_readRoute_unasked (lookup : ResourceLookup) (record : RouteRecord) (source : HandlerSource)
    (s : Session) :
    exec (readRoute lookup false record source) s =
      match Params.read (Docstring.read? source.doc) s.generator with
      | (.error f, g) => (.error f, s.drawn g)
      | (.ok params, g) => match ResourceSchema.ofTags lookup (Docstring.read? source.doc).tags with
        | .error f => (.error f, s.drawn g)
        | .ok schemas =>
          let found : Findings := { params, schemas, declared := [] }
          (.ok (found.route record source []), (s.drawn g).noted (found.note source)) := by
  unfold readRoute
  simp only [exec_bind, exec_readParams]
  rcases Params.read (Docstring.read? source.doc) s.generator with ⟨_ | params, g⟩
  · rfl
  simp only [exec_lift]
  cases ResourceSchema.ofTags lookup (Docstring.read? source.doc).tags with
  | error f => rfl
  | ok schemas => rfl

/-- What describing a record comes to, with the session that it leaves, if a header has a value. -/
def describedWith (lookup : ResourceLookup) (responses : Bool) (record : RouteRecord) (source : HandlerSource)
    (s : Session) (name value : String) : Except Failure Route × Session :=
  exec (describeRoute lookup responses (record.withHeader name value) source) s

section Quiet

variable {lookup : ResourceLookup} {responses : Bool} {record : RouteRecord} {source : HandlerSource}
  {name value : String} {s : Session}

/-- Without a call, a run sees a header in the last step only: it fails in the same way whatever the
header holds, or gives the route with what it holds. -/
theorem exec_readRoute_quiet
    (hcalls : (exec (readRoute lookup responses (record.withHeader name value) source) s).2.calls = s.calls) :
    (∃ f s', ∀ value', exec (readRoute lookup responses (record.withHeader name value') source) s = (.error f, s')) ∨
      ∃ (found : Findings) (examples : List ResponseExample) (s' : Session), ∀ value',
        exec (readRoute lookup responses (record.withHeader name value') source) s =
          (.ok (found.route (record.withHeader name value') source examples), s') := by
  cases responses with
  | false =>
    simp only [exec_readRoute_unasked]
    rcases Params.read (Docstring.read? source.doc) s.generator with ⟨f | params, g⟩
    · exact .inl ⟨_, _, fun _ => rfl⟩
    cases ResourceSchema.ofTags lookup (Docstring.read? source.doc).tags with
    | error f => exact .inl ⟨_, _, fun _ => rfl⟩
    | ok schemas => exact .inr ⟨{ params, schemas, declared := [] }, [], _, fun _ => rfl⟩
  | true =>
    simp only [exec_readRoute] at hcalls ⊢
    cases hread : Findings.read lookup (Docstring.read? source.doc) s.generator with
    | mk result g =>
    cases result with
    | error f => exact .inl ⟨_, _, fun _ => rfl⟩
    | ok found =>
      have hmethod (value' : String) :
          found.callMethod? (record.withHeader name value') = found.callMethod? record := rfl
      simp only [hread, hmethod] at hcalls ⊢
      cases hdue : found.callMethod? record with
      | none => exact .inr ⟨found, found.declared, _, fun _ => rfl⟩
      | some method =>
        have hok : (Findings.read lookup (Docstring.read? source.doc) s.generator).1 = .ok found := by rw [hread]
        obtain ⟨-, ⟨_, hquery⟩, _, hbody⟩ := Params.of_read_ok (Findings.read_ok_iff.mp hok).1
        simp only [hdue] at hcalls ⊢
        cases hcall : callFor (record.withHeader name value) found.params method with
        | ok c => simp [hcall] at hcalls
        | error f =>
          -- what can go wrong with a call has nothing to do with the headers
          have hflaw := (callFor_error_iff hquery hbody).mp hcall
          have hfails (value' : String) : callFor (record.withHeader name value') found.params method = .error f := by
            rw [callFor_error_iff hquery hbody, RouteRecord.wordless_withHeader]
            rwa [RouteRecord.wordless_withHeader] at hflaw
          exact .inl ⟨f, s.drawn g, fun value' => by rw [hfails]⟩

theorem describedWith_quiet
    (hcalls : (describedWith lookup responses record source s name value).2.calls = s.calls) :
    (∃ f s', ∀ value', describedWith lookup responses record source s name value' = (.error f, s')) ∨
      ∃ (found : Findings) (examples : List ResponseExample) (s' : Session), ∀ value',
        describedWith lookup responses record source s name value' =
          (.ok (found.route (record.withHeader name value') source examples), s') := by
  simp only [describedWith, exec_describeRoute] at hcalls ⊢
  have hread : (exec (readRoute lookup responses (record.withHeader name value) source) s).2.calls = s.calls := by
    rw [← hcalls]
    rcases exec (readRoute lookup responses (record.withHeader name value) source) s with ⟨_ | _, _⟩ <;> rfl
  rcases exec_readRoute_quiet hread with ⟨f, s', h⟩ | ⟨found, examples, s', h⟩
  · exact .inl ⟨f.tie source.identity, s', fun value' => by rw [h]⟩
  · exact .inr ⟨found, examples, s', fun value' => by rw [h]⟩

theorem describedWith_eq_iff (hauth : (Docstring.read? source.doc).hasTag "authenticated" = false)
    (hcalls : (describedWith lookup responses record source s name value).2.calls = s.calls) (value' : String) :
    describedWith lookup responses record source s name value =
        describedWith lookup responses record source s name value' ↔
      name = "Authorization" ∨ value = value' ∨
        ∃ f, (describedWith lookup responses record source s name value).1 = .error f := by
  rcases describedWith_quiet hcalls with ⟨f, s', h⟩ | ⟨found, examples, s', h⟩
  · simp [h]
  · simp only [h, Prod.mk.injEq, Except.ok.injEq, and_true, reduceCtorEq, exists_false, or_false]
    exact found.route_withHeader_eq_iff record hauth examples name value value'

/-- For a handler that needs no credentials, two records that differ in the value of one header come to
the same route and operation exactly if the header is `Authorization`, or the handler fails anyway. -/
theorem describeRoute_credentials (hauth : (Docstring.read? source.doc).hasTag "authenticated" = false)
    (hcalls : (describedWith lookup responses record source s name value).2.calls = s.calls) (value' : String) :
    (describedWith lookup responses record source s name value =
        describedWith lookup responses record source s name value' ∧
      ∀ (sampler : Sampler) (group : String),
        (describedWith lookup responses record source s name value).1.bind (operation sampler · group) =
          (describedWith lookup responses record source s name value').1.bind (operation sampler · group)) ↔
      name = "Authorization" ∨ value = value' ∨
        ∃ f, (describedWith lookup responses record source s name value).1 = .error f := by
  have hdescribed := describedWith_eq_iff hauth hcalls value'
  constructor
  · exact fun ⟨hsame, _⟩ => hdescribed.mp hsame
  · intro hhidden
    have hsame := hdescribed.mpr hhidden
    exact ⟨hsame, fun sampler group => by rw [hsame]⟩

end Quiet

/-! ## Other spellings -/

/-- A route keeps the headers of its record but the credentials that it does not need. -/
theorem exec_describeRoute_headers {lookup : ResourceLookup} {responses : Bool} {record : RouteRecord}
    {source : HandlerSource} {s s' : Session} {route : Route}
    (h : exec (describeRoute lookup responses record source) s = (.ok route, s')) :
    route.headers = documentedHeaders route.authenticated record.rules.headers := by
  rw [exec_describeRoute] at h
  cases hread : exec (readRoute lookup responses record source) s with
  | mk result s₁ =>
  rw [hread] at h
  cases result with
  | error f => simp at h
  | ok described =>
    obtain ⟨rfl, rfl⟩ : described = route ∧ s₁ = s' := by simpa using h
    cases responses with
    | true =>
      obtain ⟨found, examples, -, rfl⟩ := exec_readRoute_ok hread
      rfl
    | false =>
      rw [exec_readRoute_unasked] at hread
      split at hread
      · simp at hread
      · split at hread
        · simp at hread
        · obtain rfl := Except.ok.inj (congrArg Prod.fst hread)
          rfl

/-- The parameters of an operation have each header of its record with the value, but the one that is named
exactly as the credentials are. -/
theorem headerEntry_mem_parameterList {lookup : ResourceLookup} {responses : Bool} {record : RouteRecord}
    {source : HandlerSource} {s s' : Session} {route : Route} {name value : String}
    (h : exec (describeRoute lookup responses record source) s = (.ok route, s'))
    (hheader : (name, value) ∈ record.rules.headers) (hname : name ≠ "Authorization") :
    headerEntry name value ∈ parameterList route := by
  have hkept : (name, value) ∈ route.headers := by
    rw [exec_describeRoute_headers h, documentedHeaders]
    split
    · exact hheader
    · exact List.mem_filter.mpr ⟨hheader, by simpa using hname⟩
  refine List.mem_append_right _ (List.mem_map.mpr ⟨(name, value), ?_, rfl⟩)
  exact List.mem_filter.mpr ⟨hkept, by simpa using hname⟩

namespace PlainList

/-- A handler that says nothing of credentials. -/
def source : HandlerSource := { identity := "shop:list", doc := some "List." }

def record : RouteRecord := { handler := .named "shop:list", methods := ["GET"], uri := "/orders" }

def lookup : ResourceLookup := Modules.resource []

def session : Session := { generator := .ofSeed 0 }

theorem credentials_hidden :
    (Docstring.read? source.doc).hasTag "authenticated" = false ∧
      (describedWith lookup true record source session "Authorization" "Bearer a").2.calls = session.calls ∧
      describedWith lookup true record source session "Authorization" "Bearer a" =
        describedWith lookup true record source session "Authorization" "Bearer b" :=
  ⟨by decide +kernel, rfl, ((describeRoute_credentials (by decide +kernel) rfl "Bearer b").mpr (.inl rfl)).1⟩

/-- In small letters the same header is shown. -/
theorem credentials_shown :
    ¬ ∀ (lookup : ResourceLookup) (responses : Bool) (record : RouteRecord) (source : HandlerSource) (s : Session)
      (name value value' : String), lowerString name = "authorization" →
      (Docstring.read? source.doc).hasTag "authenticated" = false →
      (describedWith lookup responses record source s name value).2.calls = s.calls →
      describedWith lookup responses record source s name value =
        describedWith lookup responses record source s name value' := by
  intro hclaim
  have hsame := hclaim lookup true record source session "authorization" "Bearer a" "Bearer b"
    (by decide +kernel) (by decide +kernel) rfl
  have hheaders := congrArg (fun described => described.1.toOption.map Route.headers) hsame
  exact absurd hheaders (by decide +kernel)

end PlainList

end ApiManual
