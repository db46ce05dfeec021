import ApiManual.Manual
import ApiManual.Proofs.Route.Findings

/-!
# Passes, record by record

A `Pass` is what a batch of records comes to, told by the outcomes of its records.

* `exec_processRecord`: what one record does to a session.
* `Runs` takes a pass apart into its records: a property of passes is proved by induction on it, from a step for each
  record and a step for the record that stops the pass.
* `Documenter.run_process`: what a documenter makes of a batch is the pass from its session, whatever its lists
  held before.
-/

namespace ApiManual

open Source Work

/-! ## One record -/

theorem exec_describeRoute (lookup : ResourceLookup) (responses : Bool) (record : RouteRecord)
    (source : HandlerSource) (s : Session) :
    exec (describeRoute lookup responses record source) s =
      match exec (readRoute lookup responses record source) s with
      | (.ok route, s') => (.ok route, s')
      | (.error f, s') => (.error (f.tie source.identity), s') := by
  unfold describeRoute
  rw [exec_tryCatch]
  rcases exec (readRoute lookup responses record source) s with ⟨_ | _, _⟩ <;> rfl

namespace RouteRecord

/-- What reports tell of a record that was skipped. -/
def skippedNote (record : RouteRecord) : LogEntry :=
  { level := .warning, source := .pipeline, message := s!"Skipping route: {record.label}" }

/-- What reports tell of a record that was described. -/
def describedNote (record : RouteRecord) : LogEntry :=
  { level := .info, source := .pipeline, message := s!"Processed route: {record.label}" }

/-- What reports tell of a record with an authoring error. -/
def failedNote (record : RouteRecord) (e : AuthoringError) : LogEntry :=
  { level := .error, source := .pipeline,
    message := s!"Documentation error in route {record.label}: {e.message}" }

/-- The entry of a record with an authoring error. -/
def failure (record : RouteRecord) (e : AuthoringError) : RouteFailure :=
  { methods := record.documented, uri := record.uri, handler := e.handler, message := e.message }

/-- How a record ends that fails: an authoring error is taken down, other failures go on. -/
def takenDown (record : RouteRecord) (s : Session) : Failure → Except Failure Outcome × Session
  | .authoring e => (.ok (.failed (record.failure e)), s.noted (record.failedNote e))
  | f => (.error f, s)

end RouteRecord

theorem exec_recordFailure (record : RouteRecord) (f : Failure) (s : Session) :
    exec (recordFailure record f) s = record.takenDown s f := by
  cases f with
  | authoring e => unfold recordFailure; rw [exec_bind, exec_log]; rfl
  | _ => rfl

theorem exec_processRecord (modules : Modules) (record : RouteRecord) (s : Session) :
    exec (processRecord modules record) s = match documentable modules record with
      | .error f => record.takenDown s f
      | .ok none => (.ok (.skipped record.label), s.noted record.skippedNote)
      | .ok (some source) => match exec (readRoute modules.resource true record source) s with
        | (.error f, s') => record.takenDown s' (f.tie source.identity)
        | (.ok route, s') => (.ok (.described route), s'.noted record.describedNote) := by
  unfold processRecord visitRecord
  rw [exec_tryCatch, exec_bind, exec_lift]
  cases documentable modules record with
  | error f => exact exec_recordFailure record f s
  | ok found => cases found with
    | none => simp only; rw [exec_bind, exec_log]; rfl
    | some source =>
      simp only
      rw [exec_bind, exec_describeRoute]
      rcases exec (readRoute modules.resource true record source) s with ⟨f | route, s'⟩
      · exact exec_recordFailure record _ s'
      · simp only
        rw [exec_bind, exec_log]
        rfl

/-! ## Outcomes -/

namespace Outcome

/-- The outcome is a route of the record. -/
def Describes (record : RouteRecord) : Outcome → Prop
  | .described route => route.uri = record.uri ∧ route.methods = record.documented
  | _ => False

/-- The outcome is one of the record. -/
def EndsFor (record : RouteRecord) : Outcome → Prop
  | .described route => route.uri = record.uri ∧ route.methods = record.documented
  | .skipped label => label = record.label
  | .failed failure => failure.uri = record.uri ∧ failure.methods = record.documented

end Outcome

theorem exec_readRoute_ends {lookup : ResourceLookup} {record : RouteRecord} {source : HandlerSource}
    {s s' : Session} {route : Route} (h : exec (readRoute lookup true record source) s = (.ok route, s')) :
    (Outcome.described route).Describes record := by
  obtain ⟨found, responses, -, rfl⟩ := exec_readRoute_ok h
  exact ⟨rfl, rfl⟩

/-- Only an authoring error is taken down. -/
theorem takenDown_ok {record : RouteRecord} {s s' : Session} {f : Failure} {outcome : Outcome}
    (h : record.takenDown s f = (.ok outcome, s')) :
    ∃ e, f = .authoring e ∧ outcome = .failed (record.failure e) ∧ s' = s.noted (record.failedNote e) := by
  cases f with
  | authoring e =>
    obtain ⟨houtcome, hs⟩ := Prod.mk.inj h
    exact ⟨e, rfl, (Except.ok.inj houtcome).symm, hs.symm⟩
  | _ => exact absurd (congrArg Prod.fst h) (by simp [RouteRecord.takenDown])

theorem takenDown_ends {record : RouteRecord} {s s' : Session} {f : Failure} {outcome : Outcome}
    (h : record.takenDown s f = (.ok outcome, s')) : outcome.EndsFor record := by
  obtain ⟨e, -, rfl, -⟩ := takenDown_ok h
  exact ⟨rfl, rfl⟩

/-- A record is described as its handler is read. -/
theorem exec_processRecord_described {modules : Modules} {record : RouteRecord} {s s' : Session} {route : Route}
    (h : exec (processRecord modules record) s = (.ok (.described route), s')) :
    ∃ source s₁, documentable modules record = .ok (some source) ∧
      exec (readRoute modules.resource true record source) s = (.ok route, s₁) := by
  rw [exec_processRecord] at h
  split at h
  · obtain ⟨e, -, hfailed, -⟩ := takenDown_ok h
    simp at hfailed
  · simp at h
  · rename_i source hsource
    split at h
    · obtain ⟨e, -, hfailed, -⟩ := takenDown_ok h
      simp at hfailed
    · rename_i s₁ hroute
      obtain ⟨rfl, -⟩ : _ = route ∧ _ = s' := by simpa using h
      exact ⟨source, s₁, hsource, hroute⟩

/-- A record that does not stop a pass ends in an outcome of its own. -/
theorem exec_processRecord_ends {modules : Modules} {record : RouteRecord} {s s' : Session}
    {outcome : Outcome} (h : exec (processRecord modules record) s = (.ok outcome, s')) :
    outcome.EndsFor record := by
  rw [exec_processRecord] at h
  split at h
  · exact takenDown_ends h
  · obtain rfl := Except.ok.inj (congrArg Prod.fst h)
    rfl
  · split at h
    · exact takenDown_ends h
    · rename_i hroute
      obtain rfl := Except.ok.inj (congrArg Prod.fst h)
      exact exec_readRoute_ends hroute

/-! ## Passes -/

/-- What a batch of records comes to. -/
structure Pass where
  outcomes : List Outcome := []
  /-- The failure that stopped the pass. -/
  stop : Option Failure := none

namespace Pass

def routes (pass : Pass) : List Route :=
  pass.outcomes.filterMap fun o => match o with
    | .described route => some route
    | _ => none

def skipped (pass : Pass) : List String :=
  pass.outcomes.filterMap fun o => match o with
    | .skipped label => some label
    | _ => none

def failures (pass : Pass) : List RouteFailure :=
  pass.outcomes.filterMap fun o => match o with
    | .failed failure => some failure
    | _ => none

/-- What a documenter gives for the batch. -/
def result (pass : Pass) : Except Failure (List Route) :=
  match pass.stop with
  | some f => .error f
  | none => .ok pass.routes

theorem result_ok_iff {pass : Pass} {routes : List Route} :
    pass.result = .ok routes ↔ pass.stop = none ∧ pass.routes = routes := by
  unfold result
  cases pass.stop <;> simp

end Pass

/-- Go over the records in a session up to one that stops the pass. -/
def runPass (modules : Modules) : List RouteRecord → StateM Session Pass
  | [] => return {}
  | record :: records => do
    match ← (processRecord modules record).run with
    | .error f => return { stop := some f }
    | .ok outcome =>
      let pass ← runPass modules records
      return { pass with outcomes := outcome :: pass.outcomes }

/-- A pass over records from one session to another. -/
inductive Runs (modules : Modules) : List RouteRecord → Session → Pass → Session → Prop where
  | done (s : Session) : Runs modules [] s {} s
  | stop {record : RouteRecord} {s s' : Session} {f : Failure} (records : List RouteRecord)
      (h : exec (processRecord modules record) s = (.error f, s')) :
      Runs modules (record :: records) s { stop := some f } s'
  | next {record : RouteRecord} {records : List RouteRecord} {s s' s'' : Session} {outcome : Outcome}
      {pass : Pass} (h : exec (processRecord modules record) s = (.ok outcome, s'))
      (rest : Runs modules records s' pass s'') :
      Runs modules (record :: records) s { pass with outcomes := outcome :: pass.outcomes } s''

/-- What holds of every route that one of the records is described by holds of all routes of the pass. -/
theorem Runs.forall_routes {modules : Modules} {records : List RouteRecord} {s s' : Session} {pass : Pass}
    {P : Route → Prop} (h : Runs modules records s pass s')
    (hrecord : ∀ record ∈ records, ∀ s s' route,
      exec (processRecord modules record) s = (.ok (.described route), s') → P route) :
    ∀ route ∈ pass.routes, P route := by
  induction h with
  | done s => simp [Pass.routes]
  | stop records h => simp [Pass.routes]
  | @next record records s s₁ s' outcome pass h rest ih =>
    obtain ⟨hfirst, hrecords⟩ := List.forall_mem_cons.mp hrecord
    have hrest := ih hrecords
    cases outcome with
    | described route => exact List.forall_mem_cons.mpr ⟨hfirst _ _ route h, hrest⟩
    | skipped label => exact hrest
    | failed failure => exact hrest

theorem run_runPass_cons (modules : Modules) (record : RouteRecord) (records : List RouteRecord)
    (s : Session) :
    (runPass modules (record :: records)).run s = match exec (processRecord modules record) s with
      | (.error f, s') => pure ({ stop := some f }, s')
      | (.ok outcome, s') => do
        let (pass, s'') ← (runPass modules records).run s'
        return ({ pass with outcomes := outcome :: pass.outcomes }, s'') := by
  conv => lhs; unfold runPass
  rw [StateT.run_bind]
  unfold exec
  generalize StateT.run (ExceptT.run (processRecord modules record)) s = reached
  obtain ⟨f | outcome, s'⟩ := reached <;> rfl

theorem runs_runPass (modules : Modules) (records : List RouteRecord) (s : Session) :
    Runs modules records s ((runPass modules records).run s).1 ((runPass modules records).run s).2 := by
  induction records generalizing s with
  | nil => exact .done s
  | cons record records ih =>
    rw [run_runPass_cons]
    generalize hx : exec (processRecord modules record) s = reached
    obtain ⟨f | outcome, s'⟩ := reached
    · exact .stop records hx
    · exact .next hx (ih s')

/-! ## Documenters -/

namespace Documenter

/-- The documenter after a pass: what the pass has skipped and failed is added to its lists. -/
def after (d : Documenter) (pass : Pass) (s : Session) : Documenter :=
  { session := s, failures := d.failures ++ pass.failures, skipped := d.skipped ++ pass.skipped }

theorem after_after (d : Documenter) (outcome : Outcome) (pass : Pass) (s s' : Session) :
    (d.after { outcomes := [outcome] } s).after pass s' =
      d.after { pass with outcomes := outcome :: pass.outcomes } s' := by
  unfold after Pass.failures Pass.skipped
  cases outcome <;> simp

theorem run_bind {α β : Type} (w : Documenting α) (next : α → Documenting β) (d : Documenter) :
    (w >>= next).run.run d = match w.run.run d with
      | (.ok a, d') => (next a).run.run d'
      | (.error f, d') => (.error f, d') := by
  rw [ExceptT.run_bind, StateT.run_bind]
  generalize w.run.run d = reached
  obtain ⟨result, d'⟩ := reached
  cases result <;> rfl

theorem run_inSession {α : Type} (w : Work α) (d : Documenter) :
    (inSession w).run.run d = ((exec w d.session).1, { d with session := (exec w d.session).2 }) := rfl

theorem run_processOne (modules : Modules) (record : RouteRecord) (d : Documenter) :
    (processOne modules record).run.run d = match exec (processRecord modules record) d.session with
      | (.error f, s) => (.error f, d.after { stop := some f } s)
      | (.ok outcome, s) => (.ok (Pass.routes { outcomes := [outcome] }), d.after { outcomes := [outcome] } s) := by
  unfold processOne
  rw [run_bind, run_inSession]
  rcases exec (processRecord modules record) d.session with ⟨f | outcome, s⟩
  · simp [after, Pass.failures, Pass.skipped]
  · cases outcome with
    | described route =>
      change (Except.ok [route], { d with session := s }) = _
      simp [after, Pass.routes, Pass.failures, Pass.skipped]
    | skipped label =>
      change (Except.ok [], { d with session := s, skipped := d.skipped ++ [label] }) = _
      simp [after, Pass.routes, Pass.failures, Pass.skipped]
    | failed failure =>
      change (Except.ok [], { d with session := s, failures := d.failures ++ [failure] }) = _
      simp [after, Pass.routes, Pass.failures, Pass.skipped]

/-- Going over records adds to the lists of a documenter what the pass skips and fails. -/
theorem run_processAll (modules : Modules) (records : List RouteRecord) (d : Documenter) :
    (processAll modules records).run.run d =
      (((runPass modules records).run d.session).1.result,
        d.after ((runPass modules records).run d.session).1 ((runPass modules records).run d.session).2) := by
  induction records generalizing d with
  | nil =>
    have hd : d.after {} d.session = d := by simp [after, Pass.failures, Pass.skipped]
    exact Prod.ext rfl hd.symm
  | cons record records ih =>
    unfold processAll
    rw [run_bind, run_processOne, run_runPass_cons]
    rcases exec (processRecord modules record) d.session with ⟨f | outcome, s⟩
    · rfl
    · simp only
      have hsession : (d.after { outcomes := [outcome] } s).session = s := rfl
      rw [run_bind, ih, hsession]
      generalize (runPass modules records).run s = reached
      obtain ⟨⟨outcomes, stop⟩, s'⟩ := reached
      simp only [after_after]
      cases stop with
      | some f => rfl
      | none => cases outcome <;> rfl

/-- A documenter describes a batch by a pass from its session, whatever its lists held before. -/
theorem run_process (modules : Modules) (records : List RouteRecord) (d : Documenter) :
    (process modules records).run.run d =
      (((runPass modules records).run d.session).1.result,
        { session := ((runPass modules records).run d.session).2
          failures := ((runPass modules records).run d.session).1.failures
          skipped := ((runPass modules records).run d.session).1.skipped }) := by
  unfold process
  rw [run_bind]
  exact run_processAll modules records { d with failures := [], skipped := [] }

/-- The pass behind a batch. -/
theorem runs_process (modules : Modules) (records : List RouteRecord) (d : Documenter) :
    ∃ pass s, Runs modules records d.session pass s ∧ (process modules records).run.run d =
      (pass.result, { session := s, failures := pass.failures, skipped := pass.skipped }) :=
  ⟨_, _, runs_runPass modules records d.session, run_process modules records d⟩

end Documenter

end ApiManual
