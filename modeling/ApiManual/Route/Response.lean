import ApiManual.Docstring
import ApiManual.Json.Literal
import ApiManual.Param.Nested
import ApiManual.Route.Session

/-!
# Example responses

Responses that a docstring declares by `@response [status] <json>` come first. Without any, a route whose
policy allows it is called once; a call that fails leaves the route without an example.
-/

namespace ApiManual

open Text

structure ResponseExample where
  status : Int := 200
  content : String
  deriving DecidableEq, Repr, Inhabited

/-! ## Declared responses -/

/-- Three decimal digits at the front, if they are there, and the content after them. -/
def takeStatus (cs : List Char) : Option (List Char) × List Char :=
  let digits := cs.take 3
  if digits.length = 3 ∧ digits.all isDecimal then (some digits, trimLeft (cs.drop 3))
  else (none, trimLeft cs)

/-- The response that the content of a tag declares. -/
def ResponseExample.ofContent (content : String) : Except Failure ResponseExample :=
  let (status, body) := takeStatus (trim content.toList)
  match Json.readChars body with
  | .error e => .error (if e.isOverlong then .fault .integerTooLong else .defect (.responseNotJson e))
  | .ok _ =>
    .ok { status := (status.bind Number.readInteger?).getD 200, content := String.ofList body }

def declaredResponses (tags : List Tag) : Except Failure (List ResponseExample) :=
  (tags.filter (·.name == "response")).mapM fun tag => ResponseExample.ofContent tag.content

/-! ## URIs -/

/-- The name of a placeholder whose text follows an opening brace, and how many characters it takes with
the closing one: word characters, then perhaps a question mark. -/
def placeholderName? (cs : List Char) : Option (List Char × Nat) :=
  let name := cs.takeWhile isWordChar
  if name.isEmpty then none
  else match cs.dropWhile isWordChar with
    | '\x7d' :: _ => some (name, name.length + 1)
    | '?' :: '\x7d' :: _ => some (name, name.length + 2)
    | _ => none

/-- Put parameter values for placeholders, after passing over `skip` characters. -/
def fillFrom (path : Entries Param) : Nat → List Char → List Char
  | _, [] => []
  | skip + 1, _ :: cs => fillFrom path skip cs
  | 0, c :: cs =>
    if c = '\x7b' then
      match placeholderName? cs with
      | none => c :: fillFrom path 0 cs
      | some (name, n) =>
        let text := match path.get? (String.ofList name) with
          | some p => p.value.plain.toList
          | none => c :: cs.take n
        text ++ fillFrom path n cs
    else c :: fillFrom path 0 cs

/-- Fill the placeholders of a URI from bindings, each replaced in turn, then from parameters. -/
def bindUri (uri : String) (bindings : Entries String) (path : Entries Param) : String :=
  let bound := bindings.foldl (fun cs b => replaceAll b.1.toList b.2.toList cs) uri.toList
  String.ofList (fillFrom path 0 bound)

/-- One slash between a base and a path. -/
def joinUrl (base path : String) : String :=
  String.ofList (trimRightBy (· == '/') base.toList ++ '/' :: trimLeftBy (· == '/') path.toList)

/-! ## Live calls -/

/-- Methods whose calls carry no body. -/
def isBodyless (method : String) : Bool := method == "GET" || method == "DELETE"

/-- The parameters of a route, by the place they stand in. -/
structure Params where
  path : Entries Param := []
  query : Entries Param := []
  body : Entries Param := []
  deriving Repr, Inhabited

/-- Configured values in the place of those of parameters. -/
def sentValues (values : Entries Json) (configured : Entries Setting) : Entries Setting :=
  Entries.merge (values.map fun (name, v) => (name, .ofJson v)) configured

/-- The call of a route under a method, with these values for its query and its body. -/
def RouteRecord.call (record : RouteRecord) (path : Entries Param) (method : String) (query body : Entries Json) :
    Call :=
  let policy := record.rules.calls
  { method
    url := joinUrl policy.baseUrl (bindUri record.uri policy.bindings path)
    headers := policy.headers.merge record.rules.headers
    query := sentValues query policy.query
    body := if isBodyless method then none else some (sentValues body policy.body)
    timeout := policy.timeout }

/-- The call that documents a route under a method. The client breaks off at a body that JSON has no word for. -/
def callFor (record : RouteRecord) (params : Params) (method : String) : Except Failure Call := do
  let query ← expandRead params.query
  let body ← if isBodyless method then pure [] else expandRead params.body
  let c := record.call params.path method query body
  if c.flaw? = some .wordless then throw (.fault .unsendable) else return c

/-- What a reply to a call is worth: an example, or the end of a warning. -/
def Reply.judge : Reply → Except String ResponseExample
  | .failure message => .error s!"failed: {message}"
  | .answer status text =>
    if 400 ≤ status ∧ status < 600 then .error s!"returned {status}"
    else if Json.isJson text then .ok { status, content := text }
    else .error "did not return JSON"

/-- Call the route under a method once. -/
def callRoute (record : RouteRecord) (params : Params) (method : String) :
    Work (List ResponseExample) := do
  let c ← ExceptT.mk (pure (callFor record params method))
  match (← Work.call c).judge with
  | .ok e => return [e]
  | .error reason =>
    Work.log .warning .response s!"Response call to {c.method} {c.url} {reason}"
    return []

/-- The example responses of a route. -/
def responsesFor (record : RouteRecord) (tags : List Tag) (params : Params) (allowCall : Bool) :
    Work (List ResponseExample) := do
  let declared ← ExceptT.mk (pure (declaredResponses tags))
  if !declared.isEmpty || !allowCall then return declared
  match record.documented with
  | [] => return []
  | method :: _ => if record.rules.calls.allows method then callRoute record params method else return []

end ApiManual
