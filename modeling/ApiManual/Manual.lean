import ApiManual.OpenApi.Document

/-!
# Manuals

A `Documenter` goes over batches of records. Each record ends in one of three places:

* `described`, as a route of the manual;
* `skipped`, without code that can be named, not defined, or hidden;
* `failed`, by an error of its author.

Any other failure breaks the batch off. `Documenter.generate` makes the manual of a batch; a strict one refuses
where a record failed.
-/

namespace ApiManual

open Source

structure RouteFailure where
  methods : List String
  uri : String
  handler : Option String
  message : String
  deriving DecidableEq, Repr, Inhabited

inductive Outcome where
  | described (route : Route)
  | skipped (label : String)
  | failed (failure : RouteFailure)
  deriving Repr, Inhabited

/-- How reports name a route. -/
def routeLabel (methods : List String) (uri : String) : String :=
  "[" ++ ",".intercalate methods ++ "] " ++ uri

def RouteRecord.label (record : RouteRecord) : String := routeLabel record.documented record.uri

/-- The docstrings of a record's handler, unless the record is to be skipped. -/
def documentable (modules : Modules) (record : RouteRecord) : Except Failure (Option HandlerSource) :=
  match record.handler with
  | .inline | .missing => .ok none
  | .named identity => do
    let found ← modules.handler identity
    return found.filter fun source => !(Docstring.read? source.doc).isHidden

/-! ## One record -/

/-- Describe or skip a record. -/
def visitRecord (modules : Modules) (record : RouteRecord) : Work Outcome := do
  match ← ExceptT.mk (pure (documentable modules record)) with
  | none =>
    Work.log .warning .pipeline s!"Skipping route: {record.label}"
    return .skipped record.label
  | some source =>
    let route ← describeRoute modules.resource true record source
    Work.log .info .pipeline s!"Processed route: {record.label}"
    return .described route

/-- Take down an authoring error; other failures go on. -/
def recordFailure (record : RouteRecord) : Failure → Work Outcome
  | .authoring e => do
    Work.log .error .pipeline s!"Documentation error in route {record.label}: {e.message}"
    return .failed { methods := record.documented, uri := record.uri, handler := e.handler,
                     message := e.message }
  | f => throw f

def processRecord (modules : Modules) (record : RouteRecord) : Work Outcome :=
  tryCatchThe Failure (visitRecord modules record) (recordFailure record)

/-! ## Documenters -/

/-- Describes one batch of records after another. The lists tell of the batch that was described last. -/
structure Documenter where
  session : Session
  failures : List RouteFailure := []
  skipped : List String := []
  deriving Repr, Inhabited

abbrev Documenting (α : Type) := ExceptT Failure (StateM Documenter) α

namespace Documenter

/-- Work in the session of the documenter. -/
def inSession {α : Type} (w : Work α) : Documenting α :=
  ExceptT.mk (modifyGet fun d => let (result, s) := w.run.run d.session; (result, { d with session := s }))

/-- Describe a record, or take down that it was skipped or failed. -/
def processOne (modules : Modules) (record : RouteRecord) : Documenting (List Route) := do
  match ← inSession (processRecord modules record) with
  | .described route => return [route]
  | .skipped label =>
    modify fun d => { d with skipped := d.skipped ++ [label] }
    return []
  | .failed failure =>
    modify fun d => { d with failures := d.failures ++ [failure] }
    return []

def processAll (modules : Modules) : List RouteRecord → Documenting (List Route)
  | [] => return []
  | record :: records => do
    let routes ← processOne modules record
    return routes ++ (← processAll modules records)

/-- Describe a batch of records, with nothing left in the lists of the batches before. -/
def process (modules : Modules) (records : List RouteRecord) : Documenting (List Route) := do
  modify fun d => { d with failures := [], skipped := [] }
  processAll modules records

end Documenter

/-! ## Manuals -/

/-- Why there is no manual. -/
inductive Refusal where
  | stopped (f : Failure)
  /-- A strict run with failed records. -/
  | defective (failures : List RouteFailure)
  deriving Repr

def RouteFailure.line (failure : RouteFailure) : String :=
  s!"  {routeLabel failure.methods failure.uri}: {failure.message}"

/-- What is reported of a refusal. -/
def Refusal.message? : Refusal → Option String
  | stopped f => f.message?
  | defective failures =>
    some ("\n".intercalate (s!"{failures.length} route(s) have documentation errors:" ::
      failures.map (·.line)))

/-- The manual of a batch of records. -/
def Documenter.generate (modules : Modules) (config : Config) (strict : Bool) (records : List RouteRecord) :
    ExceptT Refusal (StateM Documenter) Json := do
  let routes ← (process modules records).adapt .stopped
  let failures := (← get).failures
  if strict && !failures.isEmpty then throw (.defective failures)
  ExceptT.mk (pure ((assemble config config.sampler routes).mapError .stopped))

/-- The session that a configuration starts with. Without a seed it draws from a generator that the machine makes up. -/
def Config.session (config : Config) (entropy : Generator) (probe : List Reply) : Session :=
  { generator := (config.seed.map .ofSeed).getD entropy, probe }

/-- The file that a manual is written to. -/
def manualFile : String := "openapi.json"

end ApiManual
