import ApiManual.Param.Nested
import ApiManual.Route.Describe
import ApiManual.Sample.Query

/-!
# Sample requests

A `SampleRequest` is what a code sample shows of a route: its first method, the address, the headers and
the expanded values of query and body.
-/

namespace ApiManual

structure SampleRequest where
  method : String
  url : String
  headers : Entries String
  query : Entries Json
  body : Entries Json
  deriving Repr, Inhabited

namespace SampleRequest

/-- The request for a route under a base address with these values. -/
def ofValues (base : String) (route : Route) (query body : Entries Json) : SampleRequest :=
  { method := route.methods.headD "GET", url := joinUrl base route.uri, headers := route.headers, query, body }

/-- The request for a route under a base address. -/
def ofRoute (base : String) (route : Route) : Except Failure SampleRequest := do
  return ofValues base route (← expand route.params.query) (← expand route.params.body)

/-- The address with the query. -/
def fullUrl (r : SampleRequest) : String :=
  if r.query.isEmpty then r.url else r.url ++ "?" ++ formEncode r.query

def defaultHeaders : Entries String :=
  [("Accept", "application/json"), ("Content-Type", "application/json")]

/-- The headers, and the default ones that are missing. -/
def allHeaders (r : SampleRequest) : Entries String :=
  r.headers ++ defaultHeaders.filter fun h => !r.headers.has h.1

end SampleRequest

/-- Texts as values. -/
def Entries.toJson (entries : Entries String) : Json := .obj (entries.map fun (name, s) => (name, .str s))

end ApiManual
