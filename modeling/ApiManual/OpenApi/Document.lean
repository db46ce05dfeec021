import ApiManual.Config.Model
import ApiManual.OpenApi.Schema
import ApiManual.Sample.Series

/-!
# The document

`assemble` puts routes together into an OpenAPI document. Routes are taken group by group; a path keeps
the place of its first route, and of two operations under one path and method the later one stays.
-/

namespace ApiManual

/-! ## Groups and paths -/

/-- The routes of each group, groups in the order of their first route. -/
def groupRoutes (routes : List Route) : Entries (List Route) :=
  routes.foldl (fun groups route =>
    groups.set route.group ((groups.get? route.group).getD [] ++ [route])) []

/-- A URI with one slash in front. -/
def pathKey (uri : String) : String := String.ofList ('/' :: Text.trimLeftBy (· == '/') uri.toList)

/-! ## Operations -/

def takesBody (method : String) : Bool := method == "POST" || method == "PUT" || method == "PATCH"

/-- The schema of a request body. -/
def bodySchema (params : Entries Param) : Json :=
  let required := (params.filter (·.2.required)).map (·.1)
  let properties := params.map fun (name, p) =>
    (name, Json.obj [("type", .str p.type.manualName), ("example", p.decoded),
      ("description", .str p.description)])
  .obj ([("type", .str "object")] ++
    (if required.isEmpty then [] else [("required", textList required)]) ++
    (if params.isEmpty then [] else
      [("properties", .obj properties), ("example", .obj (params.map fun (name, p) => (name, p.decoded)))]))

def paramEntry (location : String) (required : Bool) (name : String) (p : Param) : Json :=
  .obj [("in", .str location), ("name", .str name), ("description", .str p.description),
    ("required", .bool required),
    ("schema", .obj [("type", .str p.type.manualName), ("example", p.decoded)])]

def headerEntry (name value : String) : Json :=
  .obj [("in", .str "header"), ("name", .str name), ("description", .str ""), ("required", .bool true),
    ("schema", .obj [("type", .str "string"), ("default", .str value), ("example", .str value)])]

/-- Path parameters, which are all required, query parameters and headers but the credentials. -/
def parameterList (route : Route) : List Json :=
  route.params.path.map (fun (name, p) => paramEntry "path" true name p) ++
  route.params.query.map (fun (name, p) => paramEntry "query" p.required name p) ++
  (route.headers.filter (·.1 != "Authorization")).map fun (name, value) => headerEntry name value

/-- The responses, with the first example. -/
def responseEntries (route : Route) : Except Failure Json := do
  let content ← match route.responses with
    | [] => pure []
    | first :: _ => match Json.read first.content with
      | .error e => throw (.fault (.exampleNotJson e))
      | .ok v => pure [("content", Json.obj [("application/json", .obj [("schema",
          .obj [("type", .str "object"), ("example", v)])])])]
  return .obj [("200", .obj ([("description", .str "success")] ++ content))]

/-- The samples of a route with the route as they leave it, where samples are written at all. -/
abbrev Sampler := Option (Route → Except Failure (Json × Route))

/-- The entry for the samples of a route, and the route as they leave it. -/
def sampleEntry (sampler : Sampler) (route : Route) : Except Failure (List (String × Json) × Route) :=
  match sampler with
  | none => .ok ([], route)
  | some sample => do
    let (samples, route) ← sample route
    return ([("x-code-samples", samples)], route)

/-- The operation of a route: its examples are the values that its samples leave. -/
def operation (sampler : Sampler) (route : Route) (group : String) : Except Failure Json := do
  let responses ← responseEntries route
  let (samples, route) ← sampleEntry sampler route
  let security := if route.authenticated then [("security", Json.arr [.obj [("BearerAuth", .arr [])]])] else []
  let body := if route.methods.any takesBody then
      [("requestBody", Json.obj [("description", .str route.description), ("required", .bool true),
        ("content", .obj [("application/json", .obj [("schema", bodySchema route.params.body)])])])]
    else []
  return .obj (security ++
    [("tags", textList [group]), ("operationId", .str route.title),
      ("description", .str route.description)] ++
    body ++ [("parameters", .arr (parameterList route)), ("responses", responses)] ++ samples)

/-! ## The whole -/

/-- Operations under their methods, under their paths. -/
abbrev PathItems := Entries (Entries Json)

/-- Add the operation of a route under its first method; a route without methods adds none. -/
def addOperation (sampler : Sampler) (paths : PathItems) (group : String) (route : Route) :
    Except Failure PathItems :=
  match route.methods with
  | [] => .ok paths
  | method :: _ => do
    let op ← operation sampler route group
    let key := pathKey route.uri
    return paths.set key (Entries.set ((paths.get? key).getD []) (lowerString method) op)

def pathItems (sampler : Sampler) (routes : List Route) : Except Failure PathItems := do
  let empty : PathItems := Entries.ofPairs (routes.map fun route => (pathKey route.uri, []))
  let filled ← (groupRoutes routes).foldlM (fun paths (group, members) =>
    members.foldlM (fun paths route => addOperation sampler paths group route) paths) empty
  return filled.filter fun item => !item.2.isEmpty

/-- The components of the listed groups' resources; of two with one name the later one stays. -/
def schemaComponents (groups : List String) (routes : List Route) : Entries Json :=
  Entries.ofPairs ((routes.filter fun route => groups.contains route.group).flatMap fun route =>
    route.schemas.map fun schema => (schema.name, schema.component))

def documentInfo (config : Config) : Json :=
  .obj [("title", .str config.title), ("version", .str config.version),
    ("description", .str config.description),
    ("x-logo", .obj [("url", .str config.logo), ("altText", .str config.title),
      ("backgroundColor", .str config.color)])]

def securitySchemes : Json :=
  .obj [("BearerAuth", .obj [("type", .str "http"), ("scheme", .str "bearer"),
    ("bearerFormat", .str "JWT")])]

def assemble (config : Config) (sampler : Sampler) (routes : List Route) : Except Failure Json := do
  let paths ← pathItems sampler routes
  return .obj [
    ("openapi", .str "3.0.0"),
    ("info", documentInfo config),
    ("components", .obj [("securitySchemes", securitySchemes),
      ("schemas", .obj (schemaComponents config.schemaGroups routes))]),
    ("servers", .arr (config.servers.map fun server =>
      .obj [("url", .str server.url), ("description", .str server.description)])),
    ("paths", .obj (paths.map fun (path, operations) => (path, .obj operations)))]

/-- The samples that a configuration asks for. -/
def Config.sampler (config : Config) : Sampler := some (documentSamples config.docsUrl config.languageTabs)

end ApiManual
