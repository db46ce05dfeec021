import ApiManual.Proofs.Manual.Runs
import ApiManual.Proofs.Param.Typed
import ApiManual.Proofs.Random.Seed
import ApiManual.Proofs.Route.Redrawn

/-!
# Records that are left out

A pass shares one generator and one list of answers among its records. A record that is skipped or fails
takes no answer, but it may have drawn placeholders, and the records behind it then draw others.

* `runPass_redrawn`: passes with the same answers left give routes that differ at most in placeholders.
* `runPass_agree`: passes whose generators agree as well give the same routes.
* `runPass_leftOut`: what it does to the routes of a pass that a record among the others is left out.
-/

namespace ApiManual

open Source Work

/-! ## One record in two sessions -/

/-- Two outcomes of one record that differ at most in placeholders. -/
inductive Outcome.Redrawn (modules : Modules) (record : RouteRecord) : Outcome → Outcome → Prop where
  | described {source : HandlerSource} {route other : Route} (documented : Documented modules record source)
      (describes : (Outcome.described route).Describes record)
      (redrawn : route.Redrawn (Docstring.read? source.doc) other) :
      Redrawn modules record (.described route) (.described other)
  | skipped (label : String) : Redrawn modules record (.skipped label) (.skipped label)
  | failed (failure : RouteFailure) : Redrawn modules record (.failed failure) (.failed failure)

section Record

variable (modules : Modules) {s t : Session} (record : RouteRecord)

theorem takenDown_redrawn (s t : Session) (f : Failure) :
    SameOutcome (Outcome.Redrawn modules record) (record.takenDown s f).1 (record.takenDown t f).1 := by
  cases f with
  | authoring e => exact .ok (.failed _)
  | _ => exact .error _

theorem takenDown_session (s : Session) (f : Failure) :
    (record.takenDown s f).2.generator = s.generator ∧ (record.takenDown s f).2.probe = s.probe := by
  cases f <;> exact ⟨rfl, rfl⟩

/-- Sessions with the same answers left end a record alike, and have the same answers left afterwards. -/
theorem exec_processRecord_redrawn (h : s.probe = t.probe) :
    SameOutcome (Outcome.Redrawn modules record) (exec (processRecord modules record) s).1
        (exec (processRecord modules record) t).1 ∧
      (exec (processRecord modules record) s).2.probe = (exec (processRecord modules record) t).2.probe := by
  rw [exec_processRecord, exec_processRecord]
  cases hdoc : documentable modules record with
  | error f =>
    refine ⟨takenDown_redrawn modules record s t f, ?_⟩
    simp only [(takenDown_session record _ f).2, h]
  | ok found => cases found with
    | none => exact ⟨.ok (.skipped _), h⟩
    | some source =>
      obtain ⟨hroute, hprobe⟩ := exec_readRoute_redrawn modules.resource record source h
      simp only
      cases hs : exec (readRoute modules.resource true record source) s with
      | mk x s₁ =>
      cases ht : exec (readRoute modules.resource true record source) t with
      | mk y t₁ =>
      rw [hs, ht] at hroute hprobe
      cases hroute with
      | error f =>
        refine ⟨takenDown_redrawn modules record s₁ t₁ _, ?_⟩
        simp only [(takenDown_session record _ _).2]
        exact hprobe
      | ok hroute =>
        exact ⟨.ok (.described (documentable_eq_some_iff.mp hdoc) (exec_readRoute_ends hs) hroute), hprobe⟩

/-- Sessions that agree end a record in the same way, and agree afterwards. -/
theorem exec_processRecord_agree (h : s.Agree t) :
    (exec (processRecord modules record) s).1 = (exec (processRecord modules record) t).1 ∧
      (exec (processRecord modules record) s).2.Agree (exec (processRecord modules record) t).2 := by
  have htaken : ∀ {s₁ t₁ : Session} (f : Failure), s₁.Agree t₁ →
      (record.takenDown s₁ f).1 = (record.takenDown t₁ f).1 ∧
        (record.takenDown s₁ f).2.Agree (record.takenDown t₁ f).2 := by
    intro s₁ t₁ f h
    cases f <;> exact ⟨rfl, h.generator, h.probe⟩
  rw [exec_processRecord, exec_processRecord]
  cases documentable modules record with
  | error f => exact htaken f h
  | ok found => cases found with
    | none => exact ⟨rfl, h.generator, h.probe⟩
    | some source =>
      obtain ⟨hroute, hagree⟩ := exec_readRoute_agree modules.resource record source h
      simp only
      generalize exec (readRoute modules.resource true record source) s = x at hroute hagree ⊢
      generalize exec (readRoute modules.resource true record source) t = y at hroute hagree ⊢
      obtain ⟨result, s₁⟩ := x
      obtain ⟨result', t₁⟩ := y
      obtain rfl : result = result' := hroute
      cases result with
      | error f => exact htaken _ hagree
      | ok route => exact ⟨rfl, hagree.generator, hagree.probe⟩

end Record

/-! ## Passes in two sessions -/

section Passes

variable {modules : Modules} {s t : Session}

/-- Two routes of one of the records that differ at most in placeholders. -/
def RedrawnRoute (modules : Modules) (records : List RouteRecord) (route other : Route) : Prop :=
  ∃ record ∈ records, (Outcome.described route).Redrawn modules record (.described other)

theorem run_runPass_error {record : RouteRecord} {s s' : Session} {f : Failure} (records : List RouteRecord)
    (h : exec (processRecord modules record) s = (.error f, s')) :
    (runPass modules (record :: records)).run s = ({ stop := some f }, s') := by
  rw [run_runPass_cons, h]
  rfl

theorem run_runPass_ok {record : RouteRecord} {s s' : Session} {outcome : Outcome} (records : List RouteRecord)
    (h : exec (processRecord modules record) s = (.ok outcome, s')) :
    (runPass modules (record :: records)).run s =
      ({ ((runPass modules records).run s').1 with
          outcomes := outcome :: ((runPass modules records).run s').1.outcomes },
        ((runPass modules records).run s').2) := by
  rw [run_runPass_cons, h]
  rfl

/-- Sessions with the same answers left go over records alike: they stop alike or not at all, and their
routes differ at most in placeholders. -/
theorem runPass_redrawn (modules : Modules) (records : List RouteRecord) (h : s.probe = t.probe) :
    ((runPass modules records).run s).1.stop = ((runPass modules records).run t).1.stop ∧
      List.Forall₂ (RedrawnRoute modules records) ((runPass modules records).run s).1.routes
        ((runPass modules records).run t).1.routes := by
  induction records generalizing s t with
  | nil => exact ⟨rfl, .nil⟩
  | cons record records ih =>
    obtain ⟨houtcome, hprobe⟩ := exec_processRecord_redrawn modules record h
    cases hs : exec (processRecord modules record) s with
    | mk x s₁ =>
    cases ht : exec (processRecord modules record) t with
    | mk y t₁ =>
    rw [hs, ht] at houtcome hprobe
    cases houtcome with
    | error f =>
      rw [run_runPass_error records hs, run_runPass_error records ht]
      exact ⟨rfl, .nil⟩
    | ok houtcome =>
      rw [run_runPass_ok records hs, run_runPass_ok records ht]
      obtain ⟨hstop, hroutes⟩ := ih hprobe
      have hroutes : List.Forall₂ (RedrawnRoute modules (record :: records)) _ _ :=
        hroutes.imp fun _ _ ⟨r, hr, hredrawn⟩ => ⟨r, List.mem_cons_of_mem _ hr, hredrawn⟩
      refine ⟨hstop, ?_⟩
      cases houtcome with
      | described hdoc hends hroute => exact .cons ⟨record, List.mem_cons_self, .described hdoc hends hroute⟩ hroutes
      | skipped label => exact hroutes
      | failed failure => exact hroutes

/-- Sessions that agree go over records in the same way. -/
theorem runPass_agree (modules : Modules) (records : List RouteRecord) (h : s.Agree t) :
    ((runPass modules records).run s).1 = ((runPass modules records).run t).1 := by
  induction records generalizing s t with
  | nil => rfl
  | cons record records ih =>
    obtain ⟨houtcome, hagree⟩ := exec_processRecord_agree modules record h
    cases hs : exec (processRecord modules record) s with
    | mk x s₁ =>
    cases ht : exec (processRecord modules record) t with
    | mk y t₁ =>
    rw [hs, ht] at houtcome hagree
    obtain rfl : x = y := houtcome
    cases x with
    | error f => rw [run_runPass_error records hs, run_runPass_error records ht]
    | ok outcome => rw [run_runPass_ok records hs, run_runPass_ok records ht, ih hagree]

end Passes

/-! ## A record between others -/

section Between

variable {modules : Modules} {record : RouteRecord} {s : Session}

/-- When its turn comes, the record is skipped or fails by an error of its author. -/
def LeftOut (modules : Modules) (record : RouteRecord) (s : Session) : Prop :=
  ∃ outcome s', exec (processRecord modules record) s = (.ok outcome, s') ∧
    ∀ route, outcome ≠ .described route

instance (modules : Modules) (record : RouteRecord) (s : Session) : Decidable (LeftOut modules record s) :=
  match h : exec (processRecord modules record) s with
  | (.ok (.skipped _), s') => .isTrue ⟨_, s', h, by simp⟩
  | (.ok (.failed _), s') => .isTrue ⟨_, s', h, by simp⟩
  | (.ok (.described route), _) => .isFalse fun ⟨_, _, h', hout⟩ =>
      hout route (Except.ok.inj (congrArg Prod.fst (h'.symm.trans h)))
  | (.error _, _) => .isFalse fun ⟨_, _, h', _⟩ => by simp [h'] at h

/-- The record takes its turn without a draw from the generator. -/
def DrawsNothing (modules : Modules) (record : RouteRecord) (s : Session) : Prop :=
  (exec (processRecord modules record) s).2.generator = s.generator

theorem drawsNothing_of_skipped (h : documentable modules record = .ok none) (s : Session) :
    DrawsNothing modules record s := by
  unfold DrawsNothing
  rw [exec_processRecord, h]
  rfl

/-- A handler that cannot be read has only moved the generator. -/
theorem exec_readRoute_error {lookup : ResourceLookup} {source : HandlerSource} {s' : Session} {f : Failure}
    (h : exec (readRoute lookup true record source) s = (.error f, s')) : ∃ g, s' = s.drawn g := by
  rw [exec_readRoute] at h
  split at h
  · exact ⟨_, (Prod.mk.inj h).2.symm⟩
  · split at h
    · simp at h
    · split at h
      · exact ⟨_, (Prod.mk.inj h).2.symm⟩
      · simp at h

/-- A record that is left out has taken no answer. -/
theorem LeftOut.probe (h : LeftOut modules record s) :
    (exec (processRecord modules record) s).2.probe = s.probe := by
  obtain ⟨outcome, s', h, hout⟩ := h
  have h' := h
  rw [exec_processRecord] at h ⊢
  cases hdoc : documentable modules record with
  | error f => exact (takenDown_session record s f).2
  | ok found => cases found with
    | none => rfl
    | some source =>
      simp only [hdoc] at h ⊢
      rcases hroute : exec (readRoute modules.resource true record source) s with ⟨f | route, s₁⟩
      · obtain ⟨g, rfl⟩ := exec_readRoute_error hroute
        simp only [(takenDown_session record _ _).2]
        rfl
      · simp only [hroute] at h
        exact absurd (Except.ok.inj (congrArg Prod.fst h)).symm (hout route)

/-- A record that is left out adds no route and goes on to the next. -/
theorem LeftOut.run_cons (h : LeftOut modules record s) (records : List RouteRecord) :
    ((runPass modules (record :: records)).run s).1.stop =
        ((runPass modules records).run (exec (processRecord modules record) s).2).1.stop ∧
      ((runPass modules (record :: records)).run s).1.routes =
        ((runPass modules records).run (exec (processRecord modules record) s).2).1.routes := by
  obtain ⟨outcome, s', hexec, hout⟩ := h
  rw [run_runPass_ok records hexec, hexec]
  cases outcome with
  | described route => exact absurd rfl (hout route)
  | skipped | failed => exact ⟨rfl, rfl⟩

/-- What it does to the routes of the records before and after it that a record is left out between them:
the pass ends as without it, the routes before it are the same, and so are those after it except for their
placeholders; these too are the same if the record is skipped or draws nothing. -/
structure LeavesOthers (modules : Modules) (xs : List RouteRecord) (record : RouteRecord) (ys : List RouteRecord)
    (s : Session) (pass other : Pass) : Prop where
  stop : pass.stop = other.stop
  routes : ∃ after others, pass.routes = ((runPass modules xs).run s).1.routes ++ after ∧
    other.routes = ((runPass modules xs).run s).1.routes ++ others ∧
    List.Forall₂ (RedrawnRoute modules ys) after others
  same : documentable modules record = .ok none ∨ DrawsNothing modules record ((runPass modules xs).run s).2 →
    pass.routes = other.routes

/-- The record takes the first turn. -/
theorem leavesOthers_nil (h : LeftOut modules record s) (ys : List RouteRecord) :
    LeavesOthers modules [] record ys s ((runPass modules (record :: ys)).run s).1
      ((runPass modules ys).run s).1 := by
  have hprobe := h.probe
  obtain ⟨hstop, hroutes⟩ := h.run_cons ys
  obtain ⟨hstopAfter, hredrawn⟩ := runPass_redrawn modules ys hprobe
  refine ⟨hstop.trans hstopAfter, ⟨_, _, hroutes, rfl, hredrawn⟩, fun hsame => ?_⟩
  have hdraws : DrawsNothing modules record s := hsame.elim (fun h => drawsNothing_of_skipped h s) fun h => h
  rw [hroutes, runPass_agree modules ys ⟨hdraws, hprobe⟩]

/-- A record between others that is left out changes at most the placeholders of the records after it. -/
theorem runPass_leftOut (xs ys : List RouteRecord) (s : Session)
    (h : LeftOut modules record ((runPass modules xs).run s).2) :
    LeavesOthers modules xs record ys s ((runPass modules (xs ++ record :: ys)).run s).1
      ((runPass modules (xs ++ ys)).run s).1 := by
  induction xs generalizing s with
  | nil => exact leavesOthers_nil h ys
  | cons x xs ih =>
    cases hx : exec (processRecord modules x) s with
    | mk result s₁ =>
    cases result with
    | error f =>
      rw [List.cons_append, List.cons_append, run_runPass_error _ hx, run_runPass_error _ hx]
      exact ⟨rfl, ⟨[], [], by rw [run_runPass_error _ hx]; rfl, by rw [run_runPass_error _ hx]; rfl, .nil⟩,
        fun _ => rfl⟩
    | ok outcome =>
      rw [run_runPass_ok _ hx] at h
      obtain ⟨hstop, ⟨after, others, hafter, hothers, hredrawn⟩, hsame⟩ := ih s₁ h
      rw [List.cons_append, List.cons_append, run_runPass_ok _ hx, run_runPass_ok _ hx]
      refine ⟨hstop, ⟨after, others, ?_, ?_, hredrawn⟩, ?_⟩
      · rw [run_runPass_ok _ hx]
        cases outcome <;> simpa [Pass.routes] using hafter
      · rw [run_runPass_ok _ hx]
        cases outcome <;> simpa [Pass.routes] using hothers
      · rw [run_runPass_ok _ hx]
        intro hdraws
        have hroutes := hsame hdraws
        cases outcome <;> simpa [Pass.routes] using hroutes

end Between

/-! ## A record that fails behind a draw -/

namespace FailedFind

open Generator

/-- The first parameter of `find` draws a placeholder, and the second is no parameter. -/
def modules : Modules :=
  [("shop", { attributes := [("find", .function (some "Find.\n\n@pathParam limit integer\n@pathParam page")),
    ("list", .function (some "List.\n\n@pathParam id integer"))] })]

def find : RouteRecord := { handler := .named "shop:find", methods := ["GET"], uri := "/find" }

def list : RouteRecord := { handler := .named "shop:list", methods := ["GET"], uri := "/orders" }

/-- The session of a seed, which needs no generator from the machine. -/
def session : Session := Config.session { seed := some 1 } default []

/-! ### The first two draws of the session -/

/-- The words behind those of the seed. -/
def words : Array UInt32 := twist (seeded (Nat.toUInt32 1)).toArray

theorem next_first : session.generator.next = (577090037, { words, position := 1 }) := by
  have hseed : session.generator = ofSeed (1 : Nat) := by
    simp only [session, Config.session, Option.map_some, Option.getD_some, Nat.cast_one]
  have hgenerator := hseed.trans (ofSeed_word 1 (by decide))
  have hsize : (seeded (Nat.toUInt32 1)).toArray.size = size := length_seeded _
  have hword : temper (twistAt (seeded (Nat.toUInt32 1)).toArray 0) = 577090037 := by decide +kernel
  rw [hgenerator, next_of_spent, next_of_lt _ (by decide), getD_twist hsize (by decide), hword, words]

theorem next_second : next { words, position := 1 } = (2444712010, { words, position := 2 }) := by
  have hsize : (seeded (Nat.toUInt32 1)).toArray.size = size := length_seeded _
  have hword : temper (twistAt (seeded (Nat.toUInt32 1)).toArray 1) = 2444712010 := by decide +kernel
  rw [next_of_lt _ (by decide), words, getD_twist hsize (by decide), hword]

theorem placeholder_first :
    ValueType.integer.placeholder session.generator = (.int 5, { words, position := 1 }) := by
  have hdraw : session.generator.below 20 = (4, { words, position := 1 }) := by
    rw [below_of_lt (by rw [next_first]; decide), next_first]
    rfl
  rw [placeholder_integer, hdraw]
  rfl

theorem placeholder_second : (ValueType.integer.placeholder { words, position := 1 }).1 = .int 19 := by
  have hdraw : below 20 { words, position := 1 } = (18, { words, position := 2 }) := by
    rw [below_of_lt (by rw [next_second]; decide), next_second]
    rfl
  rw [placeholder_integer, hdraw]
  rfl

/-! ### The two passes -/

/-- The parameter of `list`, with a placeholder from a generator. -/
def idParam (g : Generator) : Param := { type := .integer, value := (ValueType.integer.placeholder g).1 }

theorem exec_find (s : Session) : ∃ failure s', exec (processRecord modules find) s = (.ok (.failed failure), s') ∧
    s'.generator = (ValueType.integer.placeholder s.generator).2 := by
  let source : HandlerSource :=
    { identity := "shop:find", doc := some "Find.\n\n@pathParam limit integer\n@pathParam page" }
  have hdoc : documentable modules find = .ok (some source) := rfl
  have hread : Findings.read modules.resource (Docstring.read? source.doc) s.generator =
      (.error (.defect (.inTag "pathParam" (.tagGrammar "page"))),
        (ValueType.integer.placeholder s.generator).2) := rfl
  rw [exec_processRecord, hdoc]
  simp only [exec_readRoute, hread]
  exact ⟨_, _, rfl, rfl⟩

theorem run_list (s : Session) : ∃ route, ((runPass modules [list]).run s).1.routes = [route] ∧
    ((runPass modules [list]).run s).1.stop = none ∧ route.params.path = [("id", idParam s.generator)] := by
  let source : HandlerSource := { identity := "shop:list", doc := some "List.\n\n@pathParam id integer" }
  have hdoc : documentable modules list = .ok (some source) := rfl
  have hread : Findings.read modules.resource (Docstring.read? source.doc) s.generator =
      (.ok { params := { path := [("id", idParam s.generator)] }, schemas := [], declared := [] },
        (ValueType.integer.placeholder s.generator).2) := rfl
  obtain ⟨route, s', hexec, hpath⟩ : ∃ route s', exec (processRecord modules list) s = (.ok (.described route), s') ∧
      route.params.path = [("id", idParam s.generator)] := by
    rw [exec_processRecord, hdoc]
    simp only [exec_readRoute, hread]
    exact ⟨_, _, rfl, rfl⟩
  rw [run_runPass_ok _ hexec]
  exact ⟨route, rfl, rfl, hpath⟩

theorem leftOut_find (s : Session) : LeftOut modules find s := by
  obtain ⟨failure, s', hexec, -⟩ := exec_find s
  exact ⟨_, _, hexec, by simp⟩

/-- A record that is left out can change a route of a pass that goes over all its records. -/
theorem leftOut_changes_route :
    ¬ ∀ (modules : Modules) (xs ys : List RouteRecord) (record : RouteRecord) (config : Config)
      (entropy : Generator) (probe : List Reply),
      LeftOut modules record ((runPass modules xs).run (config.session entropy probe)).2 →
      ((runPass modules (xs ++ record :: ys)).run (config.session entropy probe)).1.stop = none →
      ((runPass modules (xs ++ record :: ys)).run (config.session entropy probe)).1.routes =
        ((runPass modules (xs ++ ys)).run (config.session entropy probe)).1.routes := by
  intro hclaim
  have hsession : Config.session { seed := some 1 } default [] = session := rfl
  have hsame := hclaim modules [] [list] find { seed := some 1 } default []
  rw [hsession, List.nil_append, List.nil_append] at hsame
  obtain ⟨hstopFind, hroutesFind⟩ := (leftOut_find session).run_cons [list]
  obtain ⟨failure, s', hfind, hgenerator⟩ := exec_find session
  rw [placeholder_first] at hgenerator
  have hsecond : (exec (processRecord modules find) session).2 = s' := by rw [hfind]
  rw [hsecond] at hstopFind hroutesFind
  obtain ⟨moved, hmoved, hstop, hmovedPath⟩ := run_list s'
  obtain ⟨alone, halone, -, halonePath⟩ := run_list session
  have hroutes := hsame (leftOut_find _) (hstopFind.trans hstop)
  rw [hroutesFind, hmoved, halone] at hroutes
  obtain rfl : moved = alone := List.head_eq_of_cons_eq hroutes
  -- one placeholder would be the first and the second draw at once
  have hplaceholders : idParam s'.generator = idParam session.generator :=
    (Prod.mk.inj (List.head_eq_of_cons_eq (hmovedPath.symm.trans halonePath))).2
  have hvalues := congrArg Param.value hplaceholders
  rw [hgenerator, idParam, idParam, placeholder_first, placeholder_second] at hvalues
  exact absurd (Json.int.inj hvalues) (by decide)

theorem leavesOthers_find :
    LeftOut modules find ((runPass modules [list]).run session).2 ∧
      LeavesOthers modules [list] find [list] session ((runPass modules [list, find, list]).run session).1
        ((runPass modules [list, list]).run session).1 :=
  ⟨leftOut_find _, runPass_leftOut [list] [list] session (leftOut_find _)⟩

end FailedFind

end ApiManual
