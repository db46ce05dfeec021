import ApiManual.CommandLine.Command
import ApiManual.Proofs.FileTree

/-!
# What `generate` leaves behind

A run of `generate` ends in one of three ways (`run_generate_ends`): it fails and every file is as it was,
it was only asked for help, or the manual that it was asked for, and nothing else, was written.

`Answers` says what that manual is: the configuration can be loaded, its records are all gone over, without
failures unless the run was to keep going, and the manual is assembled from the routes. A run without a seed draws from
the entropy of its machine, whatever that is.
-/

namespace ApiManual.CommandLine

open Source

/-! ## How reports end -/

namespace Report

@[simp]
theorem exit_print (r : Report) (line : String) : (r.print line).exit = r.exit := rfl

@[simp]
theorem exit_note (r : Report) (text : String) : (r.note text).exit = r.exit := rfl

@[simp]
theorem exit_fail (r : Report) (message : String) : (r.fail message).exit = 1 := rfl

@[simp]
theorem exit_crashWith (r : Report) (crash : Crash) : (r.crashWith crash).exit = 1 := rfl

@[simp]
theorem exit_refuse (r : Report) (refusal : Refusal) : (r.refuse refusal).exit = 1 := by
  unfold refuse
  split
  · rfl
  · split <;> rfl
  · rfl

@[simp]
theorem exit_skips (r : Report) (skipped : List String) : (r.skips skipped).exit = r.exit := by
  unfold skips
  split <;> rfl

@[simp]
theorem exit_failures (r : Report) (failures : List RouteFailure) : (r.failures failures).exit = r.exit := by
  have hlines (r : Report) : (failures.foldl (fun r f => r.print f.line) r).exit = r.exit := by
    induction failures generalizing r with
    | nil => rfl
    | cons f failures ih => exact ih (r.print f.line)
  unfold Report.failures
  split
  · rfl
  · exact hlines _

end Report

theorem exit_usageReport (form : CommandForm) (e : UsageError) : (usageReport form e).exit ≠ 0 := by
  unfold usageReport
  split <;> simp

/-! ## The manual that was asked for -/

/-- The configuration that a request asks for: the one in its files, with the seed of the request where
it has one. -/
def GenerateRequest.config? (request : GenerateRequest) (tree : FileTree) : Except LoadError Config :=
  (Config.load tree request.config request.override).map fun config =>
    { config with seed := request.seed.orElse fun _ => config.seed }

/-- The directory for the manual that a request asks for. -/
def GenerateRequest.directory (request : GenerateRequest) (config : Config) : Path :=
  request.output.getD (Path.ofText config.output)

/-- A manual is the one that a request asks for. -/
structure Answers (modules : Modules) (w : Workspace) (request : GenerateRequest) (config : Config)
    (routes : List Route) (d : Documenter) (manual : Json) : Prop where
  loaded : request.config? w.tree = .ok config
  described : (Documenter.process modules config.records).run.run { session := config.session w.entropy w.probe } =
    (.ok routes, d)
  clean : request.keepGoing = false → d.failures = []
  assembled : assemble config config.sampler routes = .ok manual

theorem run_documenter_generate (modules : Modules) (config : Config) (strict : Bool) (records : List RouteRecord)
    (d : Documenter) : (Documenter.generate modules config strict records).run.run d =
      match (Documenter.process modules records).run.run d with
      | (.error f, d') => (.error (.stopped f), d')
      | (.ok routes, d') =>
        if strict && !d'.failures.isEmpty then (.error (.defective d'.failures), d')
        else ((assemble config config.sampler routes).mapError .stopped, d') := by
  unfold Documenter.generate
  rw [ExceptT.run_bind, ExceptT.run_adapt, StateT.run_bind, StateT.run_map]
  rcases (Documenter.process modules records).run.run d with ⟨f | routes, session, failures, skipped⟩
  · rfl
  · cases strict <;> cases failures <;> rfl

/-- A manual is made of a batch that is gone over to its end, without failures if it has to be. -/
theorem manual_ok {modules : Modules} {config : Config} {strict : Bool} {records : List RouteRecord} {d d' : Documenter}
    {manual : Json} (h : (Documenter.generate modules config strict records).run.run d = (.ok manual, d')) :
    ∃ routes, (Documenter.process modules records).run.run d = (.ok routes, d') ∧
      (strict = true → d'.failures = []) ∧ assemble config config.sampler routes = .ok manual := by
  rw [run_documenter_generate] at h
  generalize (Documenter.process modules records).run.run d = processed at h ⊢
  obtain ⟨f | routes, d₁⟩ := processed
  · cases congrArg Prod.fst h
  · simp only at h
    split at h
    · cases congrArg Prod.fst h
    · rename_i hclean
      obtain ⟨hmanual, rfl⟩ := Prod.mk.inj h
      exact ⟨routes, rfl, fun hstrict => by simpa [hstrict] using hclean, of_mapError_ok hmanual⟩

/-! ## Writing it -/

theorem isName_manualFile : FileTree.IsName manualFile := by
  unfold FileTree.IsName
  decide

/-- How the last step of a command can end: it fails and leaves the tree alone, or writes the manual. -/
theorem finish_ends (r : Report) (d : Documenter) (tree : FileTree) (directory : Path) (manual : Json) :
    (finish r d tree directory manual).1.exit = 1 ∧ (finish r d tree directory manual).2 = tree ∨
      (finish r d tree directory manual).1.exit = r.exit ∧
        FileTree.PutIn tree (finish r d tree directory manual).2 directory manualFile manual.compact := by
  unfold finish
  split
  · exact .inl ⟨rfl, rfl⟩
  · split
    · exact .inl ⟨rfl, rfl⟩
    · rename_i after hwritten
      obtain ⟨made, hmade, hwritten⟩ := of_bind_ok hwritten
      exact .inr ⟨by simp, FileTree.putIn_write isName_manualFile hmade hwritten⟩

/-! ## Whole commands -/

/-- How a run of `generate` can end. -/
inductive Ends (modules : Modules) (words : List String) (w : Workspace) (report : Report) (after : FileTree) :
    Prop where
  /-- With an error and every file as it was. -/
  | failed (status : report.exit ≠ 0) (unchanged : after = w.tree)
  /-- With help that was asked for. -/
  | helped (given : Given) (status : report.exit = 0) (reads : generateForm.read words = .ok given)
      (help : given.has helpOption = true) (unchanged : after = w.tree)
  /-- With the manual that was asked for as the one file that was written. -/
  | published (given : Given) (request : GenerateRequest) (config : Config) (routes : List Route)
      (d : Documenter) (manual : Json) (status : report.exit = 0)
      (reads : generateForm.read words = .ok given) (asks : GenerateRequest.ofGiven w.tree given = .ok request)
      (answer : Answers modules w request config routes d manual)
      (written : FileTree.PutIn w.tree after (request.directory config) manualFile manual.compact)

/-- What a run reports before the manual is assembled. -/
def opening (request : GenerateRequest) (config : Config) (s : Session) : Report :=
  (Report.print {} s!"Documenting {config.records.length} routes from {request.config.text}...").note
    (logText request.verbose s.log)

theorem exit_opening (request : GenerateRequest) (config : Config) (s : Session) :
    (opening request config s).exit = 0 := rfl

/-- A run that has its configuration. -/
theorem generate_of_loaded {modules : Modules} {request : GenerateRequest} {w : Workspace} {config : Config}
    {result : Except Refusal Json} {d : Documenter} (hconfig : request.config? w.tree = .ok config)
    (hrun : (Documenter.generate modules config (!request.keepGoing) config.records).run.run
      { session := config.session w.entropy w.probe } = (result, d)) :
    generate modules request w =
      let w' := { w with probe := d.session.probe, calls := w.calls ++ d.session.calls }
      match result with
      | .error refusal => ((opening request config d.session).refuse refusal, w')
      | .ok manual =>
        let (report, tree) := finish (opening request config d.session) d w.tree (request.directory config) manual
        (report, { w' with tree }) := by
  unfold GenerateRequest.config? at hconfig
  unfold generate
  cases hload : Config.load w.tree request.config request.override with
  | error e => simp [hload, Except.map] at hconfig
  | ok file =>
    rw [hload] at hconfig
    obtain rfl := Except.ok.inj hconfig
    simp only [hrun]
    cases result <;> rfl

theorem generate_ends (modules : Modules) (request : GenerateRequest) (w : Workspace) :
    (generate modules request w).1.exit = 1 ∧ (generate modules request w).2.tree = w.tree ∨
      (generate modules request w).1.exit = 0 ∧ ∃ config routes d manual,
        Answers modules w request config routes d manual ∧
          FileTree.PutIn w.tree (generate modules request w).2.tree (request.directory config) manualFile
            manual.compact := by
  cases hconfig : request.config? w.tree with
  | error e =>
    refine .inl ?_
    unfold GenerateRequest.config? at hconfig
    unfold generate
    cases hload : Config.load w.tree request.config request.override with
    | error e => cases e <;> exact ⟨rfl, rfl⟩
    | ok file => simp [hload, Except.map] at hconfig
  | ok config =>
    rcases hrun : (Documenter.generate modules config (!request.keepGoing) config.records).run.run
      { session := config.session w.entropy w.probe } with ⟨refusal | manual, d⟩
    · rw [generate_of_loaded hconfig hrun]
      exact .inl ⟨Report.exit_refuse _ _, rfl⟩
    · rw [generate_of_loaded hconfig hrun]
      obtain ⟨routes, hdescribed, hclean, hassemble⟩ := manual_ok hrun
      have hanswer : Answers modules w request config routes d manual :=
        ⟨hconfig, hdescribed, fun hstrict => hclean (by simp [hstrict]), hassemble⟩
      refine (finish_ends (opening request config d.session) d w.tree (request.directory config) manual).imp id ?_
      exact fun ⟨hexit, hput⟩ => ⟨hexit.trans (exit_opening ..), config, routes, d, manual, hanswer, hput⟩

theorem run_generate (modules : Modules) (words : List String) (w : Workspace) :
    run modules ("generate" :: words) w = generateWords modules words w := by
  have hread : programForm.read ("generate" :: words) = .ok { arguments := "generate" :: words } := by
    rw [CommandForm.read, if_neg (by decide), if_neg (by decide)]
    rfl
  unfold run
  rw [hread]
  rfl

/-- A run that ends with an error has changed no file, and one that ends without has written its manual. -/
theorem run_generate_ends (modules : Modules) (words : List String) (w : Workspace) :
    Ends modules words w (run modules ("generate" :: words) w).1 (run modules ("generate" :: words) w).2.tree := by
  rw [run_generate]
  unfold generateWords
  split
  · exact .failed (exit_usageReport _ _) rfl
  · rename_i given hgiven
    split
    · rename_i hhelp
      exact .helped given rfl hgiven hhelp rfl
    · split
      · exact .failed (exit_usageReport _ _) rfl
      · rename_i request hrequest
        rcases generate_ends modules request w with ⟨hexit, htree⟩ | ⟨hexit, config, routes, d, manual, h⟩
        · exact .failed (by simp [hexit]) htree
        · exact .published given request config routes d manual hexit hgiven hrequest h.1 h.2

end ApiManual.CommandLine
