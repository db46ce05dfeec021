import ApiManual.Proofs.Manual.Breaks

/-!
# Reports of batches

A documenter that goes over all records of a batch parts them into routes, skipped labels and failures, in their order
(`Parted`). `mapM_batch_parts` says so of batches described one after the other: each has its own records, and nothing
of the batches before it.

* `exec_readRoute_untied`: what describing a route fails with is not yet tied to a handler, whichever part of
  its docstring is at fault.
* `reports_of_takenDown`: a failure carries its record's handler, and its text starts with it.
-/

namespace ApiManual

open Source Work

/-! ## Errors without a handler -/

/-- The failure is tied to no handler yet. -/
def Failure.Untied (f : Failure) : Prop := ∀ e, f = .authoring e → e.handler = none

theorem untied_defect (d : Defect) : (Failure.defect d).Untied := by
  intro e he
  obtain rfl := Failure.authoring.inj he
  rfl

theorem untied_of_not_authored {f : Failure} (h : ¬ f.Authored) : f.Untied :=
  fun e he => absurd ⟨e, he⟩ h

theorem untied_of_defect_or {f : Failure} {fault : Fault} {p : Prop}
    (h : (∃ d, f = .defect d) ∨ p ∧ f = .fault fault) : f.Untied := by
  obtain ⟨d, rfl⟩ | ⟨-, rfl⟩ := h
  · exact untied_defect d
  · exact untied_of_not_authored (not_authored_fault _)

section Untied

variable {modules : Modules} {f : Failure}

theorem Params.read_untied {doc : Docstring} {g : Generator} (h : (Params.read doc g).1 = .error f) :
    f.Untied := by
  obtain ⟨d, rfl⟩ | ⟨fault, rfl, -⟩ := Params.read_error h
  · exact untied_defect d
  · exact untied_of_not_authored (not_authored_fault _)

theorem resource_untied {dotted : String} (h : modules.resource dotted = .error f) : f.Untied := by
  obtain ⟨⟨source, h'⟩ | ⟨d, h'⟩ | ⟨gap, h'⟩, -⟩ | ⟨name, -, h'⟩ := resource_cases modules dotted
  · simp [h'] at h
  · obtain rfl := Except.error.inj (h'.symm.trans h)
    exact untied_defect d
  · obtain rfl := Except.error.inj (h'.symm.trans h)
    exact untied_of_not_authored fun ⟨_, he⟩ => by simp at he
  · obtain rfl := Except.error.inj (h'.symm.trans h)
    exact untied_of_not_authored (not_authored_fault _)

theorem ofTag_untied {tag : Tag} (h : ResourceSchema.ofTag modules.resource tag = .error f) : f.Untied := by
  unfold ResourceSchema.ofTag at h
  cases hname : resourceName tag.content with
  | error fault =>
    simp only [hname] at h
    obtain rfl := Except.error.inj h
    exact untied_of_not_authored (not_authored_fault _)
  | ok parts =>
    obtain ⟨status, dotted⟩ := parts
    simp only [hname] at h
    cases hlookup : modules.resource dotted with
    | error f' =>
      obtain rfl : f' = f := by simpa [hlookup, bind, Except.bind] using h
      exact resource_untied hlookup
    | ok source =>
      exact untied_of_defect_or (ofSource_error (by simpa [hlookup, bind, Except.bind] using h))

theorem Findings.read_untied {doc : Docstring} {g : Generator}
    (h : (Findings.read modules.resource doc g).1 = .error f) : f.Untied := by
  unfold Findings.read at h
  rcases hparams : Params.read doc g with ⟨f' | params, g₁⟩
  · obtain rfl : f' = f := by simpa [hparams] using h
    exact Params.read_untied (congrArg Prod.fst hparams)
  simp only [hparams] at h
  cases hresources : ResourceSchema.ofTags modules.resource doc.tags with
  | error f' =>
    obtain rfl : f' = f := by simpa [hresources] using h
    obtain ⟨_, tag, _, -, -, htag⟩ := mapM_eq_error_iff.mp hresources
    exact ofTag_untied htag
  | ok schemas =>
    simp only [hresources] at h
    cases hdeclared : declaredResponses doc.tags with
    | error f' =>
      obtain rfl : f' = f := by simpa [hdeclared] using h
      obtain ⟨_, tag, _, -, -, htag⟩ := mapM_eq_error_iff.mp hdeclared
      exact untied_of_defect_or (ofContent_error htag)
    | ok declared => simp [hdeclared] at h

/-- What describing a route fails with is tied to no handler, whichever part of the docstring is at fault. -/
theorem exec_readRoute_untied {record : RouteRecord} {source : HandlerSource} {s : Session}
    (hdoc : Documented modules record source)
    (h : (exec (readRoute modules.resource true record source) s).1 = .error f) : f.Untied := by
  obtain hread | ⟨method, -, -, rfl⟩ := (exec_readRoute_error_iff hdoc s).mp h
  · exact Findings.read_untied hread
  · exact untied_of_not_authored (not_authored_fault _)

end Untied

/-! ## Failures of records -/

/-- The failure is that of the record: it carries the record's methods, URI and handler, and its text starts
with the handler unless that is empty. -/
structure RouteFailure.Reports (failure : RouteFailure) (record : RouteRecord) : Prop where
  methods : failure.methods = record.documented
  uri : failure.uri = record.uri
  named : ∃ identity, record.handler = .named identity ∧ failure.handler = some identity ∧
    ∃ d : Defect, failure.message = if identity = "" then d.message else identity ++ ": " ++ d.message

theorem AuthoringError.message_of_handler {e : AuthoringError} {identity : String}
    (h : e.handler = some identity) :
    e.message = if identity = "" then e.defect.message else identity ++ ": " ++ e.defect.message := by
  unfold AuthoringError.message
  rw [h]
  rfl

theorem reports_of_takenDown {record : RouteRecord} {identity : String} {f : Failure} {s s' : Session}
    {outcome : Outcome} (hnamed : record.handler = .named identity)
    (hf : ∀ e, f = .authoring e → e.handler = some identity)
    (h : record.takenDown s f = (.ok outcome, s')) :
    ∃ failure, outcome = .failed failure ∧ failure.Reports record := by
  obtain ⟨e, he, rfl, -⟩ := takenDown_ok h
  have hhandler := hf e he
  exact ⟨_, rfl, rfl, rfl, identity, hnamed, hhandler, e.defect, AuthoringError.message_of_handler hhandler⟩

theorem tie_authoring {f : Failure} {e : AuthoringError} {identity : String} (hf : f.Untied)
    (h : f.tie identity = .authoring e) : e.handler = some identity := by
  cases f with
  | authoring e' =>
    have hnone := hf e' rfl
    obtain rfl := Failure.authoring.inj h
    simp [hnone]
  | _ => cases h

/-- The docstrings of a handler are found under its own identity. -/
theorem handler_identity {modules : Modules} {identity : String} {source : HandlerSource}
    (h : modules.handler identity = .ok (some source)) : source.identity = identity := by
  unfold Modules.handler at h
  simp only [bind, Except.bind, pure, Except.pure, throw, throwThe, MonadExceptOf.throw] at h
  repeat' split at h
  all_goals simp_all only [Except.ok.injEq, Option.map_eq_some_iff, reduceCtorEq]
  all_goals obtain ⟨n, -, rfl⟩ := h
  all_goals rfl

/-! ## One record -/

/-- What a record adds to a pass that it does not stop: a route, a label or a failure of its own. -/
inductive Outcome.Tells (record : RouteRecord) : Outcome → Prop where
  | described {route : Route} (uri : route.uri = record.uri) (methods : route.methods = record.documented) :
      Tells record (.described route)
  | skipped : Tells record (.skipped record.label)
  | failed {failure : RouteFailure} (reports : failure.Reports record) : Tells record (.failed failure)

theorem exec_processRecord_tells {modules : Modules} {record : RouteRecord} {s s' : Session} {outcome : Outcome}
    (h : exec (processRecord modules record) s = (.ok outcome, s')) : outcome.Tells record := by
  rw [exec_processRecord] at h
  cases hdoc : documentable modules record with
  | error f =>
    simp only [hdoc] at h
    obtain ⟨identity, hnamed, hhandler⟩ := documentable_error_iff.mp hdoc
    have hf : ∀ e, f = .authoring e → e.handler = some identity := by
      intro e he
      obtain ⟨d, rfl⟩ | ⟨name, rfl⟩ := handler_error hhandler
      · obtain rfl := Failure.authoring.inj he
        rfl
      · cases he
    obtain ⟨failure, rfl, hreports⟩ := reports_of_takenDown hnamed hf h
    exact .failed hreports
  | ok found => cases found with
    | none =>
      simp only [hdoc] at h
      obtain rfl := Except.ok.inj (congrArg Prod.fst h)
      exact .skipped
    | some source =>
      have hsource := documentable_eq_some_iff.mp hdoc
      obtain ⟨identity, hnamed, hhandler⟩ := hsource.named
      simp only [hdoc] at h
      rcases hroute : exec (readRoute modules.resource true record source) s with ⟨f | route, s₁⟩
      · simp only [hroute, handler_identity hhandler] at h
        have huntied := exec_readRoute_untied hsource (congrArg Prod.fst hroute)
        obtain ⟨failure, rfl, hreports⟩ := reports_of_takenDown hnamed (fun e => tie_authoring huntied) h
        exact .failed hreports
      · simp only [hroute] at h
        obtain rfl := Except.ok.inj (congrArg Prod.fst h)
        obtain ⟨huri, hmethods⟩ := exec_readRoute_ends hroute
        exact .described huri hmethods

/-! ## Passes -/

/-- Each record stands in one of three lists, each in the order of the records: a route with its URI and
its methods, its label, or a failure that reports it. -/
inductive Parted : List RouteRecord → List Route → List String → List RouteFailure → Prop where
  | nil : Parted [] [] [] []
  | described {record : RouteRecord} {route : Route} {records : List RouteRecord} {routes : List Route}
      {skipped : List String} {failures : List RouteFailure} (uri : route.uri = record.uri)
      (methods : route.methods = record.documented) (rest : Parted records routes skipped failures) :
      Parted (record :: records) (route :: routes) skipped failures
  | skipped {record : RouteRecord} {records : List RouteRecord} {routes : List Route}
      {skipped : List String} {failures : List RouteFailure} (rest : Parted records routes skipped failures) :
      Parted (record :: records) routes (record.label :: skipped) failures
  | failed {record : RouteRecord} {failure : RouteFailure} {records : List RouteRecord} {routes : List Route}
      {skipped : List String} {failures : List RouteFailure} (reports : failure.Reports record)
      (rest : Parted records routes skipped failures) :
      Parted (record :: records) routes skipped (failure :: failures)

theorem Parted.length {records : List RouteRecord} {routes : List Route} {skipped : List String}
    {failures : List RouteFailure} (h : Parted records routes skipped failures) :
    routes.length + skipped.length + failures.length = records.length := by
  induction h with
  | nil => rfl
  | described _ _ _ ih | skipped _ ih | failed _ _ ih =>
    simp only [List.length_cons]
    omega

theorem Runs.parted {modules : Modules} {records : List RouteRecord} {s s' : Session} {pass : Pass}
    (h : Runs modules records s pass s') (hstop : pass.stop = none) :
    Parted records pass.routes pass.skipped pass.failures := by
  induction h with
  | done s => exact .nil
  | stop records h => cases hstop
  | next h rest ih =>
    have hrest := ih hstop
    cases exec_processRecord_tells h with
    | described huri hmethods => exact .described huri hmethods hrest
    | skipped => exact .skipped hrest
    | failed hreports => exact .failed hreports hrest

/-! ## Batches -/

namespace Documenter

/-- What describing a batch gives, and the documenter behind it. -/
abbrev Batch := Except Failure (List Route) × Documenter

/-- Describe a batch and go on, however it ends. -/
def batch (modules : Modules) (records : List RouteRecord) : StateM Documenter Batch := do
  let result ← (process modules records).run
  return (result, ← get)

/-- The routes and the lists of the documenter part the records. -/
def Parts (records : List RouteRecord) (routes : List Route) (d : Documenter) : Prop :=
  Parted records routes d.skipped d.failures ∧
    routes.length + d.skipped.length + d.failures.length = records.length

theorem process_parts {modules : Modules} {records : List RouteRecord} {routes : List Route} {d d' : Documenter}
    (h : (process modules records).run.run d = (.ok routes, d')) : d'.Parts records routes := by
  obtain ⟨pass, s, hruns, hrun⟩ := runs_process modules records d
  obtain ⟨hresult, rfl⟩ := Prod.mk.inj (hrun.symm.trans h)
  obtain ⟨hstop, rfl⟩ := Pass.result_ok_iff.mp hresult
  have hparted := hruns.parted hstop
  exact ⟨hparted, hparted.length⟩

/-- Of batches that are described one after the other, each that is gone over to its end is parted, and nothing of the
batches before it, or of what the documenter held at first, is in its lists. -/
theorem mapM_batch_parts (modules : Modules) (batches : List (List RouteRecord)) (d : Documenter) :
    List.Forall₂ (fun records (b : Batch) => ∀ routes, b.1 = .ok routes → b.2.Parts records routes) batches
      ((batches.mapM (batch modules)).run d).1 := by
  induction batches generalizing d with
  | nil => exact .nil
  | cons records batches ih =>
    rw [List.mapM_cons, StateT.run_bind]
    exact .cons (fun routes h => process_parts (Prod.ext h rfl)) (ih _)

end Documenter

/-! ## Two batches -/

namespace TwoBatches

def modules : Modules :=
  [("shop", { attributes := [
    ("add", .function (some "Add.\n\n@bodyParam item.id integer Example: two")),
    ("list", .function (some "Orders.\n\n@queryParam page integer Example: 2")),
    ("drop", .function (some "Drop.\n\n@hideFromAPIDocumentation"))] })]

def record (handler : Handler) (method : String) : RouteRecord :=
  { handler, methods := ["HEAD", method], uri := "/orders" }

/-- The first batch has a record for each place; the second has handlers that cannot be found. -/
def records : List (List RouteRecord) :=
  [[record (.named "shop:add") "post", record (.named "shop:list") "get", record (.named "shop:drop") "delete"],
    [record (.named "") "get", record .inline "get", record (.named "till:pay") "post"]]

/-- A documenter that has skipped something before. -/
def documenter : Documenter := { session := { generator := .ofSeed 0 }, skipped := ["[GET] /"] }

def batches : List Documenter.Batch := ((records.mapM (Documenter.batch modules)).run documenter).1

/-- How many routes a batch has, if it is complete, and what it skips and reports. -/
def summary (b : Documenter.Batch) : Option Nat × List String × List String :=
  (b.1.toOption.map (·.length), b.2.skipped, b.2.failures.map (·.message))

def summaries : List (Option Nat × List String × List String) :=
  [(some 1, ["[DELETE] /orders"], ["shop:add: @bodyParam: example 'two' is not a valid integer"]),
    (some 0, ["[GET] /orders"], ["expected a handler of the form 'package.module:Class.method'",
      "till:pay: cannot import module 'till': No module named 'till'"])]

theorem batches_parts : List.Forall₂ (fun records (b : Documenter.Batch) => ∃ routes, b.1 = .ok routes ∧
    b.2.Parts records routes) records batches ∧ batches.map summary = summaries := by
  have hsummary : batches.map summary = summaries := by decide +kernel
  have hcomplete : ((batches.map summary).all (·.1.isSome)) = true := by
    rw [hsummary]
    rfl
  rw [List.all_map, List.all_eq_true] at hcomplete
  obtain ⟨hlength, hall⟩ := List.forall₂_iff_zip.mp (Documenter.mapM_batch_parts modules records documenter)
  refine ⟨List.forall₂_iff_zip.mpr ⟨hlength, @fun r b hmem => ?_⟩, hsummary⟩
  have hsome := hcomplete b (List.of_mem_zip hmem).2
  cases hresult : b.1 with
  | error f => simp [summary, hresult, Except.toOption] at hsome
  | ok routes => exact ⟨routes, rfl, hall hmem routes hresult⟩

end TwoBatches

end ApiManual
