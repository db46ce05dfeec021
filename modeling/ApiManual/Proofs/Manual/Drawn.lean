import ApiManual.Proofs.Manual.LeftOut
import ApiManual.Proofs.Route.Drawn

/-!
# Placeholders of a pass

A pass hands one generator from tag to tag and from record to record. Only the tags that need a placeholder draw from
it, so that nothing else in the records has a part in what these get.

* `drawnTypes`: the types that the tags of records draw for, in the order in which they are read.
* `readings`: the tags of each record as a pass reads them. `drawnValues`: the values that are drawn for them.
* `Pass.Complete`: a pass that goes over all its records and takes down no failure.
* `Runs.draws`: the values are those that are drawn for the types alone. `runPass_drawn`: passes with one sequence of
  types draw one sequence of values.
-/

namespace ApiManual

open Source Work

/-! ## What a pass reads -/

/-- The parameter tags that are read of a record; there are none if it is skipped. -/
def RouteRecord.paramTags (modules : Modules) (record : RouteRecord) : List Tag :=
  match documentable modules record with
  | .ok (some source) => (Docstring.read? source.doc).paramTags
  | _ => []

/-- The types that placeholders are drawn for, in the order in which the tags are read. -/
def drawnTypes (modules : Modules) (records : List RouteRecord) : List ValueType :=
  (records.flatMap (·.paramTags modules)).filterMap Tag.drawnType?

/-- The tags of each record as they are read when its turn comes. -/
def readings (modules : Modules) : List RouteRecord → Session → List (List Reading)
  | [], _ => []
  | record :: records, s =>
    (readTags (record.paramTags modules) s.generator).1 ::
      readings modules records (exec (processRecord modules record) s).2

/-- The values that are drawn in a pass. -/
def drawnValues (modules : Modules) (records : List RouteRecord) (s : Session) : List Json :=
  (readings modules records s).flatten.filterMap Reading.drawn?

/-- The outcome of a record whose tags are read so: a route with these parameters, or nothing to read. -/
def Outcome.MadeOf (readings : List Reading) : Outcome → Prop
  | .described route => route.params.MadeOf readings
  | .skipped _ => readings = []
  | .failed _ => False

/-- The pass goes over all records and takes down no failure. -/
structure Pass.Complete (pass : Pass) : Prop where
  stop : pass.stop = none
  failures : pass.failures = []

/-! ## One record -/

section Record

variable {modules : Modules} {record : RouteRecord} {s s' : Session} {outcome : Outcome}

/-- A record that does not fail is read tag by tag, and the generator stands behind its draws. -/
theorem exec_processRecord_readings (h : exec (processRecord modules record) s = (.ok outcome, s'))
    (hfailed : ∀ failure, outcome ≠ .failed failure) :
    (∀ tag ∈ record.paramTags modules, tag.DeclaresParam) ∧
      outcome.MadeOf (readTags (record.paramTags modules) s.generator).1 ∧
      s'.generator = (readTags (record.paramTags modules) s.generator).2 := by
  rw [exec_processRecord] at h
  unfold RouteRecord.paramTags
  split at h
  · obtain ⟨e, -, hfailure, -⟩ := takenDown_ok h
    exact absurd hfailure (hfailed _)
  · rename_i hskipped
    obtain ⟨houtcome, rfl⟩ := Prod.mk.inj h
    obtain rfl := Except.ok.inj houtcome
    simp only [hskipped]
    exact ⟨by simp, rfl, rfl⟩
  · rename_i source hsource
    split at h
    · obtain ⟨e, -, hfailure, -⟩ := takenDown_ok h
      exact absurd hfailure (hfailed _)
    · rename_i route s₁ hroute
      obtain ⟨houtcome, rfl⟩ := Prod.mk.inj h
      obtain rfl := Except.ok.inj houtcome
      simp only [hsource]
      obtain ⟨hdeclared, hmade, hgenerator⟩ := exec_readRoute_readings hroute
      exact ⟨hdeclared, hmade, hgenerator⟩

end Record

/-! ## A pass -/

section Passes

variable {modules modules' : Modules} {record : RouteRecord} {records records' : List RouteRecord}
  {s s' t : Session} {outcome : Outcome} {pass : Pass}

theorem drawnTypes_cons (modules : Modules) (record : RouteRecord) (records : List RouteRecord) :
    drawnTypes modules (record :: records) =
      (record.paramTags modules).filterMap Tag.drawnType? ++ drawnTypes modules records := by
  unfold drawnTypes
  rw [List.flatMap_cons, List.filterMap_append]

theorem readings_cons (h : exec (processRecord modules record) s = (.ok outcome, s')) (records : List RouteRecord) :
    readings modules (record :: records) s =
      (readTags (record.paramTags modules) s.generator).1 :: readings modules records s' := by
  rw [readings, h]

theorem Pass.complete_next_iff : ({ pass with outcomes := outcome :: pass.outcomes } : Pass).Complete ↔
    (∀ failure, outcome ≠ .failed failure) ∧ pass.Complete := by
  constructor
  · rintro ⟨hstop, hfailures⟩
    cases outcome with
    | failed failure => simp [Pass.failures] at hfailures
    | described route => exact ⟨by simp, hstop, hfailures⟩
    | skipped label => exact ⟨by simp, hstop, hfailures⟩
  · rintro ⟨hfailed, hstop, hfailures⟩
    refine ⟨hstop, ?_⟩
    cases outcome with
    | failed failure => exact absurd rfl (hfailed failure)
    | described route => exact hfailures
    | skipped label => exact hfailures

/-- A complete pass draws the values of its types and no others, and its outcomes are made of its readings. -/
theorem Runs.draws (h : Runs modules records s pass s') (hcomplete : pass.Complete) :
    (drawnValues modules records s, s'.generator) = drawAll (drawnTypes modules records) s.generator ∧
      List.Forall₂ Outcome.MadeOf (readings modules records s) pass.outcomes := by
  induction h with
  | done s => exact ⟨rfl, .nil⟩
  | stop records h => cases hcomplete.stop
  | @next record records s s₁ s' outcome pass h rest ih =>
    obtain ⟨hfailed, hrest⟩ := Pass.complete_next_iff.mp hcomplete
    obtain ⟨hdeclared, hmade, hgenerator⟩ := exec_processRecord_readings h hfailed
    obtain ⟨hvalues, houtcomes⟩ := ih hrest
    have hfirst := readTags_draws hdeclared s.generator
    constructor
    · rw [drawnTypes_cons, drawAll_append, ← hfirst, ← hgenerator, ← hvalues]
      unfold drawnValues
      rw [readings_cons h, List.flatten_cons, List.filterMap_append]
    · rw [readings_cons h]
      exact .cons hmade houtcomes

/-- Two passes from one generator that both complete draw the same values if they draw for the same types, whatever
else is written in their records. -/
theorem runPass_drawn (hgenerator : s.generator = t.generator) (hs : ((runPass modules records).run s).1.Complete)
    (ht : ((runPass modules' records').run t).1.Complete)
    (htypes : drawnTypes modules records = drawnTypes modules' records') :
    drawnValues modules records s = drawnValues modules' records' t ∧
      List.Forall₂ Outcome.MadeOf (readings modules records s) ((runPass modules records).run s).1.outcomes ∧
      List.Forall₂ Outcome.MadeOf (readings modules' records' t) ((runPass modules' records').run t).1.outcomes := by
  obtain ⟨hvalues, hmade⟩ := (runs_runPass modules records s).draws hs
  obtain ⟨hvalues', hmade'⟩ := (runs_runPass modules' records' t).draws ht
  refine ⟨?_, hmade, hmade'⟩
  calc drawnValues modules records s
      = (drawAll (drawnTypes modules records) s.generator).1 := congrArg Prod.fst hvalues
    _ = (drawAll (drawnTypes modules' records') t.generator).1 := by rw [htypes, hgenerator]
    _ = drawnValues modules' records' t := (congrArg Prod.fst hvalues').symm

theorem complete_cons_iff (h : exec (processRecord modules record) s = (.ok outcome, s'))
    (records : List RouteRecord) :
    ((runPass modules (record :: records)).run s).1.Complete ↔
      (∀ failure, outcome ≠ .failed failure) ∧ ((runPass modules records).run s').1.Complete := by
  rw [run_runPass_ok records h]
  exact Pass.complete_next_iff

end Passes

/-! ## Two manuals with one placeholder -/

namespace Reworded

def modules : Modules :=
  [("shop", { attributes := [("list", .function (some "List.\n\n@pathParam id integer")),
    ("find", .function (some
      "Find.\n\n@bodyParam tags list\n@queryParam page int Example: 2\n@pathParam order int"))] })]

def list : RouteRecord := { handler := .named "shop:list", methods := ["GET"], uri := "/orders" }

def find : RouteRecord := { handler := .named "shop:find", methods := ["POST"], uri := "/find" }

/-- A record without code is skipped. -/
def inline : RouteRecord := { handler := .inline, methods := ["GET"], uri := "/" }

theorem exec_described (record : RouteRecord) (s : Session) {source : HandlerSource} {found : Findings}
    {g : Generator} (hcalls : record.rules.calls.methods = [])
    (hdoc : documentable modules record = .ok (some source))
    (hread : Findings.read modules.resource (Docstring.read? source.doc) s.generator = (.ok found, g)) :
    ∃ route s', exec (processRecord modules record) s = (.ok (.described route), s') := by
  have hcall : found.callMethod? record = none := by
    have hallows : ∀ method, record.rules.calls.allows method = false := by
      intro method
      unfold CallPolicy.allows
      rw [hcalls]
      rfl
    unfold Findings.callMethod?
    simp [hallows]
  rw [exec_processRecord, hdoc]
  simp only [exec_readRoute, hread, hcall]
  exact ⟨_, _, rfl⟩

theorem complete_list (s : Session) : ((runPass modules [list]).run s).1.Complete := by
  obtain ⟨route, s', h⟩ := exec_described list s rfl rfl rfl
  exact (complete_cons_iff h []).mpr ⟨fun _ => nofun, rfl, rfl⟩

theorem complete_find (s : Session) : ((runPass modules [inline, find]).run s).1.Complete := by
  have hskipped : exec (processRecord modules inline) s =
      (.ok (.skipped inline.label), s.noted inline.skippedNote) := by
    rw [exec_processRecord]
    rfl
  obtain ⟨route, s', h⟩ := exec_described find (s.noted inline.skippedNote) rfl rfl rfl
  exact (complete_cons_iff hskipped [find]).mpr
    ⟨fun _ => nofun, (complete_cons_iff h []).mpr ⟨fun _ => nofun, rfl, rfl⟩⟩

theorem drawnTypes_list : drawnTypes modules [list] = [.integer] := by decide +kernel

theorem drawnTypes_find : drawnTypes modules [inline, find] = [.integer] := by decide +kernel

/-- The path parameters of the two manuals get the same placeholder, whatever stands around them. -/
theorem drawn_reworded :
    drawnTypes modules [list] = drawnTypes modules [inline, find] ∧
      drawnValues modules [list] (Config.session { seed := some 1 } default []) =
        drawnValues modules [inline, find] (Config.session { seed := some 1 } (.ofSeed 2) [.failure "down"]) := by
  have htypes := drawnTypes_list.trans drawnTypes_find.symm
  have hgenerator : ∀ (entropy entropy' : Generator) (probe probe' : List Reply),
      (Config.session { seed := some 1 } entropy probe).generator =
        (Config.session { seed := some 1 } entropy' probe').generator := fun _ _ _ _ => rfl
  exact ⟨htypes, (runPass_drawn (hgenerator ..) (complete_list _) (complete_find _) htypes).1⟩

end Reworded

end ApiManual
