import ApiManual.Proofs.Results
import ApiManual.Route.Session

/-!
# Steps of a run

`Work.exec` gives the result of a step beside the session that it leaves, also where it fails. The lemmas
here take a step apart: one for each way to build one, and one for each thing that a step can do to a
session.
-/

namespace ApiManual

/-! ## What a step does to a session -/

/-- The session with the generator at another place. -/
def Session.drawn (s : Session) (g : Generator) : Session := { s with generator := g }

/-- The session after one more call, which takes the next reply. -/
def Session.called (s : Session) (c : Call) : Session :=
  { s with calls := s.calls ++ [c], probe := s.probe.tail }

/-- The session with one more entry in its log. -/
def Session.noted (s : Session) (entry : LogEntry) : Session := { s with log := s.log ++ [entry] }

namespace Session

variable (s : Session)

@[simp]
theorem drawn_generator (g : Generator) : (s.drawn g).generator = g := rfl

@[simp]
theorem drawn_calls (g : Generator) : (s.drawn g).calls = s.calls := rfl

@[simp]
theorem called_calls (c : Call) : (s.called c).calls = s.calls ++ [c] := rfl

@[simp]
theorem noted_calls (entry : LogEntry) : (s.noted entry).calls = s.calls := rfl

/-- What the next call is answered. -/
def nextReply : Reply := s.reply.1

/-- How this call comes out, if it is the next. -/
def replyTo (c : Call) : Reply := s.nextReply.to c

/-- How a call comes out hangs on the replies that are left and on nothing else of the session. -/
theorem replyTo_congr {s t : Session} (h : s.probe = t.probe) (c : Call) : s.replyTo c = t.replyTo c := by
  unfold replyTo nextReply reply
  rw [h]
  cases t.probe <;> rfl

@[simp]
theorem drawn_replyTo (g : Generator) (c : Call) : (s.drawn g).replyTo c = s.replyTo c :=
  replyTo_congr (s := s.drawn g) (t := s) rfl c

end Session

namespace Work

variable {α β : Type}

/-- The result of a step on a session, and the session as it leaves it. -/
def exec (w : Work α) (s : Session) : Except Failure α × Session := w.run.run s

@[simp]
theorem exec_pure (a : α) (s : Session) : exec (pure a) s = (.ok a, s) := rfl

@[simp]
theorem exec_throw (f : Failure) (s : Session) : exec (throw f : Work α) s = (.error f, s) := rfl

@[simp]
theorem exec_lift (r : Except Failure α) (s : Session) : exec (ExceptT.mk (pure r)) s = (r, s) := rfl

theorem exec_bind (w : Work α) (next : α → Work β) (s : Session) :
    exec (w >>= next) s = match exec w s with
      | (.ok a, s') => exec (next a) s'
      | (.error f, s') => (.error f, s') := by
  unfold exec
  rw [ExceptT.run_bind, StateT.run_bind]
  generalize StateT.run (ExceptT.run w) s = reached
  obtain ⟨result, s'⟩ := reached
  cases result <;> rfl

theorem exec_tryCatch (w : Work α) (handle : Failure → Work α) (s : Session) :
    exec (tryCatchThe Failure w handle) s = match exec w s with
      | (.ok a, s') => (.ok a, s')
      | (.error f, s') => exec (handle f) s' := by
  change StateT.run (ExceptT.run (tryCatch w handle)) s = _
  unfold exec
  rw [ExceptT.run_tryCatch, StateT.run_bind]
  generalize StateT.run (ExceptT.run w) s = reached
  obtain ⟨result, s'⟩ := reached
  cases result <;> rfl

@[simp]
theorem exec_log (level : LogLevel) (source : LogSource) (message : String) (s : Session) :
    exec (Work.log level source message) s = (.ok (), s.noted { level, source, message }) := rfl

theorem exec_modify (f : Session → Session) (s : Session) :
    exec (modify f : Work Unit) s = (.ok (), f s) := rfl

theorem exec_modifyGet (f : Session → α × Session) (s : Session) :
    exec (modifyGet f : Work α) s = (.ok (f s).1, (f s).2) := rfl

@[simp]
theorem exec_call (c : Call) (s : Session) : exec (Work.call c) s = (.ok (s.replyTo c), s.called c) := by
  unfold Work.call
  simp only [exec_bind, exec_modify, exec_modifyGet, exec_pure, Session.replyTo, Session.nextReply, Session.called,
    Session.reply]
  cases s.probe <;> rfl

@[simp]
theorem exec_draw (f : Generator → Except Defect α × Generator) (s : Session) :
    exec (Work.draw f) s =
      ((f s.generator).1.mapError Failure.defect, s.drawn (f s.generator).2) := by
  unfold Work.draw
  rw [exec_bind, exec_modifyGet]
  cases (f s.generator).1 <;> simp [Session.drawn]

end Work

end ApiManual
