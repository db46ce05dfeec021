import ApiManual.Digest.Md5
import ApiManual.Route.Response
import ApiManual.Source.Lookup

/-!
# Describing routes

`describeRoute` turns a record and its handler's docstrings into a `Route`. It reads the path, query and
body parameters, in this order, then the resources, then finds an example response. A defect is tied to
the handler.
-/

namespace ApiManual

structure Route where
  id : String
  group : String
  title : String
  description : String := ""
  methods : List String
  uri : String
  authenticated : Bool := false
  headers : Entries String := []
  params : Params := {}
  responses : List ResponseExample := []
  showResponse : Bool := false
  schemas : List ResourceSchema := []
  deriving Repr, Inhabited

/-- The bytes that identify a route: its URI, a colon and its methods one after the other. -/
def routeKey (uri : String) (methods : List String) : List UInt8 :=
  (uri ++ ":" ++ String.join methods).toUTF8.toList

def routeId (uri : String) (methods : List String) : String := Md5.hex (routeKey uri methods)

/-- The parameters that tags of one kind declare after `params`; of two with one name the later
replaces the earlier in its place. -/
def paramsOf (kind : String) (params : Entries Param) :
    List Tag → Generator → Except Defect (Entries Param) × Generator
  | [], g => (.ok params, g)
  | tag :: tags, g =>
    match Param.ofTag tag.content g with
    | (.error d, g) => (.error (.inTag kind d), g)
    | (.ok (name, p), g) => paramsOf kind (params.set name p) tags g

/-- Names that cannot be expanded together are a defect of their tags. -/
def checkNesting (kind : String) (params : Entries Param) : Except Failure Unit :=
  match expandRead params with
  | .ok _ => .ok ()
  | .error f => .error (f.within (.inTag kind))

/-- The parameters of a handler. -/
def readParams (doc : Docstring) : Work Params := do
  let path ← Work.draw (paramsOf "pathParam" [] (doc.tagsNamed "pathParam"))
  let query ← Work.draw (paramsOf "queryParam" [] (doc.tagsNamed "queryParam"))
  let body ← Work.draw (paramsOf "bodyParam" [] (doc.tagsNamed "bodyParam"))
  ExceptT.mk (pure (checkNesting "queryParam" query))
  ExceptT.mk (pure (checkNesting "bodyParam" body))
  return { path, query, body }

/-- The response that stands in when there is none: the payload of the first resource. -/
def ResourceSchema.response (schema : ResourceSchema) : ResponseExample :=
  { status := schema.statusCode, content := (Json.obj schema.payload).compactAscii }

/-- Without an authenticated tag the credentials are left out. -/
def documentedHeaders (authenticated : Bool) (headers : Entries String) : Entries String :=
  if authenticated then headers else headers.erase "Authorization"

/-- What a session logs about a handler that has been read. -/
def readNote (source : HandlerSource) (params : Params) (schemas : List ResourceSchema) : String :=
  s!"Parsed {source.identity}: {params.path.length} path, {params.query.length} query, " ++
    s!"{params.body.length} body parameters, {schemas.length} schemas"

/-- `describeRoute` before a defect is tied to the handler. -/
def readRoute (lookup : ResourceLookup) (responses : Bool) (record : RouteRecord)
    (source : HandlerSource) : Work Route := do
  let doc := Docstring.read? source.doc
  let params ← readParams doc
  let schemas ← ExceptT.mk (pure (ResourceSchema.ofTags lookup doc.tags))
  let authenticated := doc.hasTag "authenticated"
  let found ← if responses then responsesFor record doc.tags params schemas.isEmpty else pure []
  let examples := match found, schemas with
    | [], schema :: _ => [schema.response]
    | found, _ => found
  Work.log .debug .annotations (readNote source params schemas)
  return {
    id := routeId record.uri record.documented
    group := routeGroup source.doc source.ownerDoc
    title := doc.summary
    description := doc.details
    methods := record.documented
    uri := record.uri
    authenticated
    headers := documentedHeaders authenticated record.rules.headers
    params
    responses := examples
    showResponse := !examples.isEmpty
    schemas }

/-- Describe a route; `responses` says whether example responses are looked for. -/
def describeRoute (lookup : ResourceLookup) (responses : Bool) (record : RouteRecord)
    (source : HandlerSource) : Work Route :=
  tryCatchThe Failure (readRoute lookup responses record source) fun f => throw (f.tie source.identity)

end ApiManual
