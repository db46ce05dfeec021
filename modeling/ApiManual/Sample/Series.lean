import ApiManual.Param.Shared
import ApiManual.Sample.Render

/-!
# Samples one after the other

The samples of a route share the lists and objects that its parameters were given. `codeSample` tells the
first sample; what its names write into these values is there in the samples after it, and in the route
that `documentSamples` leaves.
-/

namespace ApiManual

/-- The values that the samples of a route share. -/
structure SharedValues where
  query : Store := []
  body : Store := []
  deriving Repr, Inhabited

def SharedValues.ofParams (params : Params) : SharedValues :=
  { query := .ofParams params.query, body := .ofParams params.body }

def SampleRequest.ofShared (base : String) (route : Route) (shared : SharedValues) :
    Except Failure SampleRequest × SharedValues :=
  match shared.query.expand route.params.query with
  | (.error f, query) => (.error f, { shared with query })
  | (.ok queryValues, query) => match shared.body.expand route.params.body with
    | (.error f, body) => (.error f, { query, body })
    | (.ok bodyValues, body) => (.ok (.ofValues base route queryValues bodyValues), { query, body })

/-- The sample in the language of this name, and the values as it leaves them. -/
def nextSample (base : String) (route : Route) (shared : SharedValues) (language : String) :
    Except Failure String × SharedValues :=
  match Language.ofName? language with
  | none => (.error (.unknownLanguage language), shared)
  | some l =>
    let (request, shared) := SampleRequest.ofShared base route shared
    (request.map (·.render l), shared)

def samplesFrom (base : String) (route : Route) (shared : SharedValues) :
    List String → List (Except Failure String) × SharedValues
  | [] => ([], shared)
  | language :: languages =>
    let (sample, shared) := nextSample base route shared language
    let (samples, shared) := samplesFrom base route shared languages
    (sample :: samples, shared)

/-- The samples of a route in these languages, in turn. -/
def codeSamples (base : String) (languages : List String) (route : Route) : List (Except Failure String) :=
  (samplesFrom base route (.ofParams route.params) languages).1

/-- A route with the values of its parameters as its samples left them. -/
def Route.settle (route : Route) (shared : SharedValues) : Route :=
  { route with params := { route.params with
      query := shared.query.settle route.params.query, body := shared.body.settle route.params.body } }

/-- The samples of a route for a document, under the names by which languages are shown, and the route as
they leave it. -/
def documentSamples (base : String) (tabs : Entries String) (route : Route) : Except Failure (Json × Route) := do
  let (samples, shared) := samplesFrom base route (.ofParams route.params) tabs.names
  let sources ← samples.mapM id
  let entries := List.zipWith (fun (_, name) source => Json.obj [("lang", .str name), ("source", .str source)])
    tabs sources
  return (.arr entries, route.settle shared)

end ApiManual
