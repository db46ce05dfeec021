import ApiManual.Route.Record

/-!
# Configuration

The settings of a manual and the routes that it documents. Routes stand in groups that share their
rules; `Config.records` lists all of them in order.
-/

namespace ApiManual

structure Server where
  url : String
  description : String := ""
  deriving DecidableEq, Repr, Inhabited

structure RouteEntry where
  handler : String
  methods : List String
  uri : String
  deriving DecidableEq, Repr, Inhabited

structure RouteGroup where
  rules : ApplyRules := {}
  routes : List RouteEntry := []
  deriving Repr, Inhabited

structure Config where
  title : String := "API Reference"
  version : String := "v1"
  description : String := ""
  logo : String := ""
  color : String := ""
  servers : List Server := []
  /-- Languages of the samples, in order, with the names they are shown under. -/
  languageTabs : Entries String := [("bash", "Bash"), ("javascript", "Javascript"), ("python", "Python")]
  docsUrl : String := "http://localhost:8000"
  /-- Groups whose resources are listed as components. -/
  schemaGroups : List String := []
  output : String := "public/docs"
  seed : Option Int := none
  routes : List RouteGroup := []
  deriving Repr, Inhabited

def RouteGroup.records (group : RouteGroup) : List RouteRecord :=
  group.routes.map fun entry =>
    { handler := .named entry.handler, methods := entry.methods, uri := entry.uri, rules := group.rules }

def Config.records (config : Config) : List RouteRecord := config.routes.flatMap (·.records)

end ApiManual
