import ApiManual.Config.Setting
import ApiManual.Entries
import ApiManual.Text.Case

/-!
# Route records

A `RouteRecord` names a handler, its methods and its URI, and carries the rules for documenting it:
headers of every request, and a `CallPolicy` for live calls.
-/

namespace ApiManual

def upperString (s : String) : String := String.ofList (Text.upper s.toList)

def lowerString (s : String) : String := String.ofList (Text.lower s.toList)

/-- When and how a live endpoint is called for an example response. -/
structure CallPolicy where
  /-- `*` stands for every method; without methods there are no calls. -/
  methods : List String := []
  baseUrl : String := "http://localhost:8000"
  bindings : Entries String := []
  headers : Entries String := [("Content-Type", "application/json"), ("Accept", "application/json")]
  /-- Values that are sent with every call. Integers in them have no more digits than are read of one. -/
  query : Entries Setting := []
  body : Entries Setting := []
  timeout : Binary64 := .ofInt 10
  deriving Repr, Inhabited

def CallPolicy.allows (policy : CallPolicy) (method : String) : Bool :=
  let allowed := policy.methods.map upperString
  allowed.contains "*" || allowed.contains (upperString method)

structure ApplyRules where
  headers : Entries String := []
  calls : CallPolicy := {}
  deriving Repr, Inhabited

/-- How a record refers to its handler. -/
inductive Handler where
  | named (identity : String)
  /-- Code given in place, which has no identity. -/
  | inline
  | missing
  deriving DecidableEq, Repr, Inhabited

structure RouteRecord where
  handler : Handler
  methods : List String
  uri : String
  rules : ApplyRules := {}
  deriving Repr, Inhabited

/-- The methods in upper case, without `HEAD`. -/
def documentedMethods (methods : List String) : List String :=
  (methods.map upperString).filter (· != "HEAD")

def RouteRecord.documented (record : RouteRecord) : List String := documentedMethods record.methods

end ApiManual
