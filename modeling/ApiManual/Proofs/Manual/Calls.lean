import ApiManual.Proofs.Manual.Runs
import ApiManual.Proofs.Route.Bodies
import ApiManual.Proofs.Route.Due

/-!
# The calls of a batch

A documenter that goes over all records calls those that a call is due, once each and in their order, and
no others.

* `CallOf`: the call that is due to a record, part by part.
* `exec_processRecord_calls` is the step: a record with a due call makes it and is described whatever the reply, and any
  other record calls nothing.
* `Documenter.process_callsDue`: the calls of a batch that is gone over to its end.
-/

namespace ApiManual

open Source Work

/-- Some live call of the record is due. -/
def Due (modules : Modules) (record : RouteRecord) : Prop :=
  ∃ source method, DueCall modules record source method

/-- The call of a route under a method with these parameters: the path parameters stand in the URL, and configured
values take the place of parameters in the query and in the body, which `GET` and `DELETE` do not have. -/
structure Call.Fits (c : Call) (record : RouteRecord) (method : String) (params : Params) : Prop where
  url : c.url = joinUrl record.rules.calls.baseUrl (bindUri record.uri record.rules.calls.bindings params.path)
  headers : c.headers = record.rules.calls.headers.merge record.rules.headers
  query : ∃ values, expand params.query = .ok values ∧ c.query = sentValues values record.rules.calls.query
  body : ∃ values, expand params.body = .ok values ∧
    c.body = if isBodyless method then none else some (sentValues values record.rules.calls.body)
  timeout : c.timeout = record.rules.calls.timeout
  method : c.method = method

/-- The call that a record is due, with its parameters as some generator fills them in. -/
def CallOf (modules : Modules) (record : RouteRecord) (c : Call) : Prop :=
  ∃ source method g params, DueCall modules record source method ∧
    (Params.read (Docstring.read? source.doc) g).1 = .ok params ∧ c.Fits record method params

/-! ## One record -/

section Step

variable {modules : Modules} {record : RouteRecord} {source : HandlerSource} {s s' : Session}

theorem Due.documentable (h : Due modules record) :
    ∃ source, documentable modules record = .ok (some source) := by
  obtain ⟨source, _, h⟩ := h
  exact ⟨source, documentable_eq_some_iff.mpr h.documented⟩

/-- The call for parameters that have been read fits them. -/
theorem callFor_fits {doc : Docstring} {g : Generator} {params : Params} {method : String} {c : Call}
    (hread : (Params.read doc g).1 = .ok params) (hcall : callFor record params method = .ok c) :
    c.Fits record method params := by
  obtain ⟨-, ⟨query, hquery⟩, body, hbody⟩ := Params.of_read_ok hread
  obtain ⟨-, rfl⟩ := (callFor_ok_iff hquery hbody).mp hcall
  exact {
    url := rfl
    headers := rfl
    query := ⟨query, (expandRead_ok_iff.mp hquery).2, rfl⟩
    body := ⟨body, (expandRead_ok_iff.mp hbody).2, rfl⟩
    timeout := rfl
    method := rfl }

/-- Of a documented record, a call is due iff reading its handler comes to one. -/
theorem due_iff_of_documentable (hdoc : documentable modules record = .ok (some source)) (g : Generator) :
    Due modules record ↔ ∃ method found,
      (Findings.read modules.resource (Docstring.read? source.doc) g).1 = .ok found ∧
        found.callMethod? record = some method := by
  constructor
  · rintro ⟨source', method, h⟩
    obtain rfl : source = source' := by
      simpa [hdoc] using documentable_eq_some_iff.mpr h.documented
    exact ⟨method, (Findings.due_iff h.documented method g).mp h⟩
  · rintro ⟨method, h⟩
    exact ⟨source, method, (Findings.due_iff (documentable_eq_some_iff.mp hdoc) method g).mpr h⟩

/-- Reading the route of a record with a due call makes the call; any other makes none. -/
theorem exec_readRoute_calls {route : Route} (hdoc : documentable modules record = .ok (some source))
    (h : exec (readRoute modules.resource true record source) s = (.ok route, s')) :
    (Due modules record ∧ ∃ c, CallOf modules record c ∧ s'.calls = s.calls ++ [c]) ∨
    (¬ Due modules record ∧ s'.calls = s.calls) := by
  rw [exec_readRoute] at h
  rw [due_iff_of_documentable hdoc s.generator]
  cases hread : Findings.read modules.resource (Docstring.read? source.doc) s.generator with
  | mk result g =>
  rw [hread] at h
  cases result with
  | error f => simp at h
  | ok found =>
  have hok : (Findings.read modules.resource (Docstring.read? source.doc) s.generator).1 = .ok found := by
    rw [hread]
  cases hmethod : found.callMethod? record with
  | none =>
    refine .inr ⟨by simp [hmethod], ?_⟩
    obtain ⟨-, rfl⟩ := Prod.mk.inj (by simpa only [hmethod] using h)
    rfl
  | some method =>
    simp only [hmethod] at h
    cases hcall : callFor record found.params method with
    | error f => simp [hcall] at h
    | ok c =>
      simp only [hcall] at h
      obtain ⟨-, rfl⟩ := Prod.mk.inj h
      have hdue := (Findings.due_iff (documentable_eq_some_iff.mp hdoc) method s.generator).mpr
        ⟨found, hok, hmethod⟩
      have hparams := (Findings.read_ok_iff.mp hok).1
      refine .inl ⟨⟨method, found, rfl, hmethod⟩, c,
        ⟨source, method, s.generator, found.params, hdue, hparams, callFor_fits hparams hcall⟩, ?_⟩
      simp

/-- An authoring error comes up before a call, and then none is due. -/
theorem exec_readRoute_failed {f : Failure} {e : AuthoringError}
    (hdoc : documentable modules record = .ok (some source))
    (h : exec (readRoute modules.resource true record source) s = (.error f, s'))
    (hf : f.tie source.identity = .authoring e) : ¬ Due modules record ∧ s'.calls = s.calls := by
  rw [exec_readRoute] at h
  rw [due_iff_of_documentable hdoc s.generator]
  cases hread : Findings.read modules.resource (Docstring.read? source.doc) s.generator with
  | mk result g =>
  rw [hread] at h
  cases result with
  | error f' =>
    obtain ⟨-, rfl⟩ := Prod.mk.inj h
    exact ⟨by simp, rfl⟩
  | ok found =>
  have hok : (Findings.read modules.resource (Docstring.read? source.doc) s.generator).1 = .ok found := by
    rw [hread]
  cases hmethod : found.callMethod? record with
  | none => simp [hmethod] at h
  | some method =>
    simp only [hmethod] at h
    cases hcall : callFor record found.params method with
    | ok c => simp [hcall] at h
    | error f' =>
      -- a body that JSON has no word for fails the call, and that is no authoring error
      obtain ⟨-, ⟨_, hquery⟩, _, hbody⟩ := Params.of_read_ok (Findings.read_ok_iff.mp hok).1
      obtain ⟨-, rfl⟩ := (callFor_error_iff hquery hbody).mp hcall
      obtain rfl : Failure.fault .unsendable = f := by simpa [hcall] using congrArg Prod.fst h
      simp [Failure.tie] at hf

theorem not_due (h : ∀ source, documentable modules record ≠ .ok (some source)) : ¬ Due modules record := by
  intro hdue
  obtain ⟨source, hsource⟩ := hdue.documentable
  exact h source hsource

/-- A record with a due call makes it and is described; any other makes no call. -/
theorem exec_processRecord_calls {outcome : Outcome}
    (h : exec (processRecord modules record) s = (.ok outcome, s')) :
    (Due modules record ∧ outcome.Describes record ∧
      ∃ c, CallOf modules record c ∧ s'.calls = s.calls ++ [c]) ∨
    (¬ Due modules record ∧ s'.calls = s.calls) := by
  rw [exec_processRecord] at h
  cases hdoc : documentable modules record with
  | error f =>
    rw [hdoc] at h
    obtain ⟨e, -, -, rfl⟩ := takenDown_ok h
    exact .inr ⟨not_due (by simp [hdoc]), rfl⟩
  | ok found => cases found with
    | none =>
      obtain ⟨-, rfl⟩ : _ ∧ s.noted record.skippedNote = s' := by simpa [hdoc] using h
      exact .inr ⟨not_due (by simp [hdoc]), rfl⟩
    | some source =>
      rcases hroute : exec (readRoute modules.resource true record source) s with ⟨f | route, s₁⟩
      · simp only [hdoc, hroute] at h
        obtain ⟨e, hf, -, rfl⟩ := takenDown_ok h
        obtain ⟨hdue, hcalls⟩ := exec_readRoute_failed hdoc hroute hf
        exact .inr ⟨hdue, hcalls⟩
      · simp only [hdoc, hroute] at h
        obtain ⟨houtcome, rfl⟩ := Prod.mk.inj h
        obtain rfl := Except.ok.inj houtcome
        obtain ⟨hdue, c, hc, hcalls⟩ | ⟨hdue, hcalls⟩ := exec_readRoute_calls hdoc hroute
        · exact .inl ⟨hdue, exec_readRoute_ends hroute, c, hc, hcalls⟩
        · exact .inr ⟨hdue, hcalls⟩

end Step

/-! ## Passes -/

open scoped Classical in
/-- The calls between two sessions are those that are due, in the order of the records. -/
def CalledDue (modules : Modules) (records : List RouteRecord) (s s' : Session) : Prop :=
  ∃ calls, s'.calls = s.calls ++ calls ∧ List.Forall₂ (CallOf modules) (records.filter (Due modules ·)) calls

/-- Each record that was called is described. -/
def DueDescribed (modules : Modules) (records : List RouteRecord) (outcomes : List Outcome) : Prop :=
  List.Forall₂ (fun record outcome => Due modules record → outcome.Describes record) records outcomes

theorem Runs.callsDue {modules : Modules} {records : List RouteRecord} {s s' : Session} {pass : Pass}
    (h : Runs modules records s pass s') (hstop : pass.stop = none) :
    CalledDue modules records s s' ∧ DueDescribed modules records pass.outcomes := by
  induction h with
  | done s => exact ⟨⟨[], by simp⟩, .nil⟩
  | stop records h => simp at hstop
  | @next record records s s' s'' outcome pass h rest ih =>
    obtain ⟨⟨calls, hcalls, hall⟩, hends⟩ := ih hstop
    obtain ⟨hdue, hdescribes, c, hc, hs'⟩ | ⟨hdue, hs'⟩ := exec_processRecord_calls h
    · refine ⟨⟨c :: calls, by simp [hcalls, hs'], ?_⟩, .cons (fun _ => hdescribes) hends⟩
      simpa [List.filter_cons, hdue] using ⟨hc, hall⟩
    · refine ⟨⟨calls, by rw [hcalls, hs'], ?_⟩, .cons (fun h => absurd h hdue) hends⟩
      simpa [List.filter_cons, hdue] using hall

/-- A documenter that goes over all records makes one call for each that is due one, in their order, and no others; a
record that was called ends in the routes whatever the reply. -/
theorem Documenter.process_callsDue (modules : Modules) (records : List RouteRecord) (d d' : Documenter)
    (routes : List Route) (hrun : (process modules records).run.run d = (.ok routes, d')) :
    CalledDue modules records d.session d'.session ∧
      ∃ pass : Pass, pass.routes = routes ∧ DueDescribed modules records pass.outcomes := by
  obtain ⟨pass, s, hruns, heq⟩ := runs_process modules records d
  obtain ⟨hresult, rfl⟩ := Prod.mk.inj (heq.symm.trans hrun)
  obtain ⟨hstop, hroutes⟩ := Pass.result_ok_iff.mp hresult
  obtain ⟨hcalls, hdescribed⟩ := hruns.callsDue hstop
  exact ⟨hcalls, pass, hroutes, hdescribed⟩

/-! ## A batch with one call -/

namespace OneCall

def modules : Modules :=
  [("shop", { attributes := [("list", .function (some "Orders.\n\n@queryParam page integer Example: 2"))] })]

/-- A record without a handler, and one that every method is called of, with a date in its query. -/
def records : List RouteRecord :=
  [{ handler := .missing, methods := ["GET"], uri := "/" },
   { handler := .named "shop:list", methods := ["HEAD", "get"], uri := "/orders",
     rules := { calls := {
       methods := ["*"]
       query := [("since", .moment { year := 2024, month := 1, day := 1 })] } } }]

def documenter : Documenter := { session := { generator := .ofSeed 0, probe := [.answer 500 ""] } }

theorem complete_callsDue : ∃ routes d', (Documenter.process modules records).run.run documenter = (.ok routes, d') ∧
    d'.session.calls.length = 1 ∧ CalledDue modules records documenter.session d'.session ∧
      ∃ pass : Pass, pass.routes = routes ∧ DueDescribed modules records pass.outcomes := by
  have hok : ((Documenter.process modules records).run.run documenter).1.isOk = true := by decide +kernel
  have hcalls : ((Documenter.process modules records).run.run documenter).2.session.calls.length = 1 := by
    decide +kernel
  generalize hrun : (Documenter.process modules records).run.run documenter = reached at hok hcalls
  obtain ⟨_ | routes, d'⟩ := reached
  · simp [Except.isOk, Except.toBool] at hok
  · exact ⟨routes, d', rfl, hcalls, Documenter.process_callsDue modules records documenter d' routes hrun⟩

end OneCall

end ApiManual
