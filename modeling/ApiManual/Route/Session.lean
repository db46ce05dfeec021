import ApiManual.Failure
import ApiManual.Random.Draw
import ApiManual.Route.Record

/-!
# Sessions

A `Session` is what a run carries from route to route: the generator, the answers that live endpoints
will give, the calls made to them and the log. `Work` is a step of a run; what it did to the session
stays also where it fails.
-/

namespace ApiManual

/-- How one call comes out. -/
inductive Reply where
  | answer (status : Int) (text : String)
  /-- The client that makes the call fails, with this message. -/
  | failure (message : String)
  deriving DecidableEq, Repr, Inhabited

/-- What a client is asked to send. It writes the query into the URL and the body as JSON. Method, URL, headers and
timeout are ones that it takes, and whole numbers among the configured values have `Number.maxDigits` digits at most. -/
structure Call where
  method : String
  url : String
  headers : Entries String
  query : Entries Setting
  body : Option (Entries Setting)
  timeout : Binary64
  deriving Repr, Inhabited

/-- What is in the way of a body where the client writes it as JSON. -/
def bodyFlaw? (body : Entries Setting) : Option Setting.NoJson :=
  match (Setting.table (body.map fun (name, v) => (.str name, v))).toJson true with
  | .ok _ => none
  | .error flaw => some flaw

def Call.flaw? (c : Call) : Option Setting.NoJson := c.body.bind bodyFlaw?

/-- The reply to a call that would be replied to in this way: a client that cannot write the body fails before it sends
anything. -/
def Reply.to (reply : Reply) (c : Call) : Reply :=
  match c.flaw?.bind Setting.NoJson.message? with
  | some message => .failure message
  | none => reply

inductive LogLevel where
  | debug
  | info
  | warning
  | error
  deriving DecidableEq, Repr, Inhabited

def LogLevel.name : LogLevel → String
  | debug => "DEBUG"
  | info => "INFO"
  | warning => "WARNING"
  | error => "ERROR"

/-- The part of a run that writes to the log. -/
inductive LogSource where
  | pipeline
  | annotations
  | response
  deriving DecidableEq, Repr, Inhabited

def LogSource.name : LogSource → String
  | pipeline => "routedoc.generator.pipeline"
  | annotations => "routedoc.parser.annotations"
  | response => "routedoc.generator.response"

structure LogEntry where
  level : LogLevel
  source : LogSource
  message : String
  deriving DecidableEq, Repr, Inhabited

structure Session where
  generator : Generator
  probe : List Reply := []
  calls : List Call := []
  log : List LogEntry := []
  deriving Repr, Inhabited

/-- The reply to the next call; with none left, the connection fails. -/
def Session.reply (s : Session) : Reply × Session :=
  match s.probe with
  | [] => (.failure "no answer scripted", s)
  | r :: rest => (r, { s with probe := rest })

abbrev Work (α : Type) := ExceptT Failure (StateM Session) α

namespace Work

def log (level : LogLevel) (source : LogSource) (message : String) : Work Unit :=
  modify fun s => { s with log := s.log ++ [{ level, source, message }] }

/-- Make a call and take the reply. -/
def call (c : Call) : Work Reply := do
  modify fun s => { s with calls := s.calls ++ [c] }
  return (← modifyGet (·.reply)).to c

/-- Draw from the generator, which moves on also where the draw ends in a defect. -/
def draw {α : Type} (f : Generator → Except Defect α × Generator) : Work α := do
  let result ← modifyGet fun s => let (r, g) := f s.generator; (r, { s with generator := g })
  match result with
  | .ok a => pure a
  | .error d => throw (.defect d)

end Work

end ApiManual
