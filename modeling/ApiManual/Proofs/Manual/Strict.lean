import ApiManual.Proofs.Json.Strict
import ApiManual.Proofs.Manual.Assembly

/-!
# Manuals in strict JSON

The text of a manual need not be JSON in the strict sense: an author may write `nan` for a number, and a
body that is declared or answered may hold `NaN` or `1e999`, which all are read as floats that strict JSON
has no spelling for. `assembled_strict`: these floats are all that is in the way, and where no text that a
pass is given spells one, every manual of its routes is strict.

* `FiniteInputs`: what is asked of the texts that a pass is given.
* `Runs.finite`: then all routes of the pass are finite.
-/

namespace ApiManual

open Source Work

/-- The examples that authors wrote are finite, and so are the answers to calls. -/
structure FiniteInputs (modules : Modules) (records : List RouteRecord) (probe : List Reply) : Prop where
  examples : ∀ record ∈ records, ∀ found ∈ (documentable modules record).toOption, ∀ source ∈ found,
    (Docstring.read? source.doc).FiniteExamples modules.resource
  answers : ∀ reply ∈ probe, reply.Finite

instance (modules : Modules) (records : List RouteRecord) (probe : List Reply) :
    Decidable (FiniteInputs modules records probe) :=
  decidable_of_iff ((∀ record ∈ records, ∀ found ∈ (documentable modules record).toOption, ∀ source ∈ found,
      (Docstring.read? source.doc).FiniteExamples modules.resource) ∧ ∀ reply ∈ probe, reply.Finite)
    ⟨fun h => ⟨h.1, h.2⟩, fun h => ⟨h.examples, h.answers⟩⟩

/-! ## One record -/

section Record

variable {modules : Modules} {record : RouteRecord} {s s' : Session}

theorem takenDown_probe {s₀ : Session} {f : Failure} {result : Except Failure Outcome} (hs : s₀.probe <:+ s.probe)
    (h : record.takenDown s₀ f = (result, s')) : s'.probe <:+ s.probe := by
  cases f <;> (obtain rfl := (Prod.mk.inj h).2; exact hs)

/-- A record takes answers off the front of those that are there. -/
theorem exec_processRecord_probe {result : Except Failure Outcome}
    (h : exec (processRecord modules record) s = (result, s')) : s'.probe <:+ s.probe := by
  rw [exec_processRecord] at h
  split at h
  · exact takenDown_probe (List.suffix_refl _) h
  · obtain rfl := (Prod.mk.inj h).2
    exact List.suffix_refl _
  · split at h
    · rename_i hroute
      exact takenDown_probe (exec_readRoute_probe hroute) h
    · rename_i hroute
      have hprobe := exec_readRoute_probe hroute
      obtain rfl := (Prod.mk.inj h).2
      exact hprobe

/-- The route of a record is finite if its texts and the answers to calls are. -/
theorem exec_processRecord_finite {records : List RouteRecord} (hrecord : record ∈ records)
    (hinputs : FiniteInputs modules records s.probe) {route : Route}
    (h : exec (processRecord modules record) s = (.ok (.described route), s')) : route.Finite := by
  obtain ⟨source, s₁, hsource, hroute⟩ := exec_processRecord_described h
  have hdoc := hinputs.examples record hrecord (some source) (mem_toOption.mpr hsource) source rfl
  exact exec_readRoute_finite hdoc hinputs.answers hroute

end Record

/-! ## Passes -/

theorem FiniteInputs.mono {modules : Modules} {records records' : List RouteRecord} {probe probe' : List Reply}
    (h : FiniteInputs modules records probe) (hrecords : records' ⊆ records) (hprobe : probe' ⊆ probe) :
    FiniteInputs modules records' probe' where
  examples record hrecord := h.examples record (hrecords hrecord)
  answers reply hreply := h.answers reply (hprobe hreply)

theorem Runs.finite {modules : Modules} {records : List RouteRecord} {s s' : Session} {pass : Pass}
    (h : Runs modules records s pass s') (hinputs : FiniteInputs modules records s.probe) :
    ∀ route ∈ pass.routes, route.Finite := by
  induction h with
  | done s => simp [Pass.routes]
  | stop records h => simp [Pass.routes]
  | @next record records s s₁ s' outcome pass h rest ih =>
    have hprobe := exec_processRecord_probe h
    have hrest := ih (hinputs.mono (List.subset_cons_self record records) (List.IsSuffix.subset hprobe))
    cases outcome with
    | described route =>
      have hroute := exec_processRecord_finite List.mem_cons_self hinputs h
      exact List.forall_mem_cons.mpr ⟨hroute, hrest⟩
    | skipped label => exact hrest
    | failed failure => exact hrest

/-- The text of a manual is strict iff no float in it is infinite or no number, and it is strict if no
example and no answer that the pass was given holds such a float. -/
theorem assembled_strict (modules : Modules) (records : List RouteRecord) (s : Session) (config : Config)
    (base : Option String) {manual : Json}
    (h : assemble config (base.map fun base => documentSamples base config.languageTabs)
      ((runPass modules records).run s).1.routes = .ok manual) :
    (Json.Strict manual.compact.toList ↔ manual.Finite) ∧
      (FiniteInputs modules records s.probe → Json.Strict manual.compact.toList) := by
  have hruns := runs_runPass modules records s
  refine ⟨Json.strict_compact_iff manual, fun hinputs => ?_⟩
  have hfinite := hruns.finite hinputs
  have hsampler : ∀ route ∈ ((runPass modules records).run s).1.routes,
      Sampler.EachFor (·.isFinite) (base.map fun base => documentSamples base config.languageTabs) route :=
    fun route hroute => documentSamples_eachFor (hruns.sound route hroute) (hfinite route hroute) _ _
  exact (Json.strict_compact_iff manual).mpr (assemble_each hfinite config hsampler h)

/-! ## Numbers that are written out -/

namespace Prices

def price : Node := .cls [.mk ["Price"] none [("to_dict", .source ["return \x7b",
  "# @responseParam net number Example: 2.5", "'net': self.net,", "\x7d"])]]

def modules : Modules := [("shop", { attributes := [("Price", price),
  ("quote", .function (some ("Quote.\n\n@queryParam limit object Example: \x7b\"to\": 1e3\x7d\n" ++
    "@responseResource shop.Price"))),
  ("find", .function (some "Find.\n\n@queryParam price float Example: -0.75"))] })]

def records : List RouteRecord := [
  { handler := .named "shop:quote", methods := ["GET"], uri := "/quotes" },
  { handler := .named "shop:find", methods := ["GET"], uri := "/orders", rules := { calls := { methods := ["*"] } } }]

def session : Session := { generator := .ofSeed 0, probe := [.answer 200 "[1.5, 2e-3]"] }

theorem finiteInputs : FiniteInputs modules records session.probe := by decide +kernel

theorem strict_prices :
    ((runPass modules records).run session).1.routes.length = 2 ∧
      ∃ manual, assemble {} none ((runPass modules records).run session).1.routes = .ok manual ∧
        Json.Strict manual.compact.toList := by
  obtain ⟨manual, hmanual⟩ :
      ∃ manual, assemble {} none ((runPass modules records).run session).1.routes = .ok manual :=
    exists_of_isOk (by decide +kernel)
  exact ⟨by decide +kernel, manual, hmanual, (assembled_strict modules records session {} none hmanual).2 finiteInputs⟩

end Prices

/-! ## No number -/

namespace NoNumber

def modules : Modules :=
  [("shop", { attributes := [("find", .function (some "Find.\n\n@response \x7b\"total\": NaN\x7d"))] })]

def records : List RouteRecord := [{ handler := .named "shop:find", methods := ["GET"], uri := "/orders" }]

def session : Session := { generator := .ofSeed 0 }

/-- The declared body passes for JSON, and a pass that nothing stops gives a manual that is not strict. -/
theorem nan_not_strict :
    ¬ ∀ (modules : Modules) (records : List RouteRecord) (s : Session) (config : Config) (manual : Json),
      ((runPass modules records).run s).1.stop = none →
        assemble config config.sampler ((runPass modules records).run s).1.routes = .ok manual →
          Json.Strict manual.compact.toList := by
  intro hstrict
  have hstop : ((runPass modules records).run session).1.stop.isNone = true := by decide +kernel
  obtain ⟨manual, hmanual⟩ :
      ∃ manual, assemble {} (Config.sampler {}) ((runPass modules records).run session).1.routes = .ok manual :=
    exists_of_isOk (by decide +kernel)
  have hinfinite : ∀ manual ∈
      (assemble {} (Config.sampler {}) ((runPass modules records).run session).1.routes).toOption,
      ¬ manual.Finite := by decide +kernel
  have htext := hstrict modules records session {} manual (Option.isNone_iff_eq_none.mp hstop) hmanual
  exact hinfinite manual (mem_toOption.mpr hmanual) ((Json.strict_compact_iff manual).mp htext)

end NoNumber

end ApiManual
