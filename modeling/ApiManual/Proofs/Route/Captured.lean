import ApiManual.Proofs.Route.Bodies
import ApiManual.Proofs.Route.Findings

/-!
# What a live call captures

A route is called to show what a success looks like. The call is to be made once, and to end in one example
of a success or in nothing with one warning. `exec_callRoute_captured_iff` says when it does.

* `Reply.Success`: the status of the reply says so and its body is JSON.
* `Captured`: a call that ended as it is to end.
* `Reply.Mistaken`: the reply is taken for a success though its status says otherwise.
-/

namespace ApiManual

open Work

/-- A reply is a success: an answer with a status from 200 to 299 whose body is JSON, which is the example. -/
inductive Reply.Success : Reply → ResponseExample → Prop where
  | answer {status : Int} {text : String} (least : 200 ≤ status) (most : status ≤ 299)
      (json : Json.isJson text = true) : Success (.answer status text) { status, content := text }

/-- The result of a call on a session, and the session behind it: the call has been made once, and there is
one example of a success, or nothing and one warning. -/
inductive Captured (c : Call) (s : Session) : Except Failure (List ResponseExample) × Session → Prop where
  | success {e : ResponseExample} (h : (s.replyTo c).Success e) : Captured c s (.ok [e], s.called c)
  | warning (message : String) (h : ∀ e, ¬ (s.replyTo c).Success e) :
      Captured c s (.ok [], (s.called c).noted { level := .warning, source := .response, message })

/-- An answer with a JSON body whose status is outside the two hundreds and outside the error statuses. -/
def Reply.Mistaken : Reply → Prop
  | .answer status text => Json.isJson text = true ∧ ¬ (200 ≤ status ∧ status ≤ 299) ∧ ¬ (400 ≤ status ∧ status < 600)
  | .failure _ => False

namespace Reply

variable {reply : Reply} {e : ResponseExample}

/-- An answer is worth an example if its status is no error and its body is JSON. -/
theorem judge_answer_ok_iff {status : Int} {text : String} : (answer status text).judge = .ok e ↔
    ¬ (400 ≤ status ∧ status < 600) ∧ Json.isJson text = true ∧ { status, content := text } = e := by
  have hjudge : (answer status text).judge =
      if 400 ≤ status ∧ status < 600 then .error s!"returned {status}"
      else if Json.isJson text then .ok { status, content := text }
      else .error "did not return JSON" := rfl
  rw [hjudge]
  split_ifs with hstatus hjson
  · exact ⟨nofun, fun h => absurd hstatus h.1⟩
  · exact ⟨fun h => ⟨hstatus, hjson, Except.ok.inj h⟩, fun h => congrArg Except.ok h.2.2⟩
  · exact ⟨nofun, fun h => absurd h.2.1 hjson⟩

theorem Success.judge (h : reply.Success e) : reply.judge = .ok e := by
  cases h with
  | answer least most json => exact judge_answer_ok_iff.mpr ⟨by omega, json, rfl⟩

/-- An example is one of a success unless the reply was mistaken for one. -/
theorem success_of_judge (h : reply.judge = .ok e) (hsure : ¬ reply.Mistaken) : reply.Success e := by
  cases reply with
  | failure message => cases h
  | answer status text =>
    obtain ⟨herror, hjson, rfl⟩ := judge_answer_ok_iff.mp h
    have hstatus : 200 ≤ status ∧ status ≤ 299 := by
      by_contra hstatus
      exact hsure ⟨hjson, hstatus, herror⟩
    exact .answer hstatus.1 hstatus.2 hjson

/-- A mistaken reply is worth an example, which is none of a success. -/
theorem Mistaken.judge (h : reply.Mistaken) : ∃ e, reply.judge = .ok e ∧ ¬ reply.Success e := by
  cases reply with
  | failure message => exact h.elim
  | answer status text =>
    obtain ⟨hjson, hstatus, herror⟩ := h
    refine ⟨_, judge_answer_ok_iff.mpr ⟨herror, hjson, rfl⟩, ?_⟩
    rintro ⟨least, most⟩
    exact hstatus ⟨least, most⟩

end Reply

/-- A call whose reply is not mistaken ends as it is to end. -/
theorem captured_probed (c : Call) {s : Session} (hsure : ¬ (s.replyTo c).Mistaken) :
    Captured c s (.ok (s.replyTo c).examples, s.probed c) := by
  unfold Reply.examples Session.probed
  cases hjudge : (s.replyTo c).judge with
  | ok e => exact .success (Reply.success_of_judge hjudge hsure)
  | error reason => exact .warning _ fun e he => by simp [he.judge] at hjudge

/-- A call whose reply is mistaken for a success does not. -/
theorem not_captured_probed {c : Call} {s : Session} (hmistaken : (s.replyTo c).Mistaken) :
    ¬ Captured c s (.ok (s.replyTo c).examples, s.probed c) := by
  obtain ⟨e, hjudge, hno⟩ := hmistaken.judge
  simp only [Reply.examples, Session.probed, hjudge]
  intro h
  cases h with
  | success h => exact hno h

/-- The call of a record under its first method, for parameters that expand: it is made once and ends in one
example of a success or in nothing with one warning, just if JSON has a word for the body and the reply to the call
is not mistaken for a success. -/
theorem exec_callRoute_captured_iff (record : RouteRecord) (hmethods : record.documented ≠ []) (params : Params)
    (query body : Entries Json) (hquery : expandRead params.query = .ok query)
    (hbody : expandRead params.body = .ok body) (s : Session) :
    (∃ c, callFor record params (record.documented.head hmethods) = .ok c ∧
        Captured c s (exec (callRoute record params (record.documented.head hmethods)) s)) ↔
      ¬ record.Wordless (record.documented.head hmethods) body ∧
        ¬ (s.replyTo (record.call params.path (record.documented.head hmethods) query body)).Mistaken := by
  generalize record.documented.head hmethods = method
  rw [exec_callRoute]
  by_cases hwordless : record.Wordless method body
  · simp [(callFor_error_iff hquery hbody).mpr ⟨hwordless, rfl⟩, hwordless]
  · rw [(callFor_ok_iff hquery hbody).mpr ⟨hwordless, rfl⟩]
    simp only [Except.ok.injEq, exists_eq_left', hwordless, not_false_eq_true, true_and]
    exact ⟨fun h hmistaken => not_captured_probed hmistaken h, captured_probed _⟩

/-! ## A call that is redirected -/

namespace Redirect

def record : RouteRecord :=
  { handler := .inline, methods := ["HEAD", "post"], uri := "/orders", rules := { calls := { methods := ["POST"] } } }

def params : Params := { body := [("order.id", { type := .integer, value := .int 7 })] }

/-- A session whose next call is answered with this status. -/
def session (status : Int) : Session := { generator := .ofSeed 0, probe := [.answer status "\x7b\x7d"] }

theorem documented_record : record.documented = ["POST"] := by decide +kernel

theorem expandRead_query : expandRead params.query = .ok [] := rfl

theorem expandRead_params : expandRead params.body = .ok [("order", .obj [("id", .int 7)])] := rfl

/-- A call that creates something is captured. -/
theorem captured_created : record.documented ≠ [] ∧ expandRead params.query = .ok [] ∧
    expandRead params.body = .ok [("order", .obj [("id", .int 7)])] ∧
    ∃ c, callFor record params "POST" = .ok c ∧
      Captured c (session 201) (exec (callRoute record params "POST") (session 201)) := by
  have hmethods : record.documented ≠ [] := by simp [documented_record]
  have hmethod : record.documented.head hmethods = "POST" := by simp [documented_record]
  have hiff := exec_callRoute_captured_iff record hmethods params [] [("order", .obj [("id", .int 7)])] expandRead_query
    expandRead_params (session 201)
  rw [hmethod] at hiff
  refine ⟨hmethods, expandRead_query, expandRead_params, hiff.mpr ⟨by decide +kernel, ?_⟩⟩
  have hreply : (session 201).replyTo (record.call params.path "POST" [] [("order", .obj [("id", .int 7)])]) =
      .answer 201 "\x7b\x7d" := by decide +kernel
  rw [hreply]
  exact fun h => h.2.1 (by decide)

/-- A redirection is taken for an example. -/
theorem redirect_mistaken : record.documented = ["POST"] ∧ expandRead params.query = .ok [] ∧
    expandRead params.body = .ok [("order", .obj [("id", .int 7)])] ∧
    ¬ ∃ c, callFor record params "POST" = .ok c ∧
      Captured c (session 302) (exec (callRoute record params "POST") (session 302)) := by
  refine ⟨documented_record, expandRead_query, expandRead_params, ?_⟩
  rintro ⟨c, hcall, hcaptured⟩
  obtain ⟨-, rfl⟩ := (callFor_ok_iff expandRead_query expandRead_params).mp hcall
  have hreply : (session 302).replyTo (record.call params.path "POST" [] [("order", .obj [("id", .int 7)])]) =
      .answer 302 "\x7b\x7d" := by decide +kernel
  rw [exec_callRoute, hcall] at hcaptured
  refine not_captured_probed ?_ hcaptured
  rw [hreply]
  exact ⟨by decide +kernel, by decide, by decide⟩

end Redirect

end ApiManual
