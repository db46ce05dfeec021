import ApiManual.Defect

/-!
# Failures

A run ends in a `Failure` when it cannot answer. An `authoring` failure belongs to one route and is
reported with it. `Fault`s are inputs that no rule of the documentation covers: they end the run
without a report.
-/

namespace ApiManual

/-- A defect and the handler that it was found in. -/
structure AuthoringError where
  defect : Defect
  handler : Option String := none
  deriving Repr

def AuthoringError.message (e : AuthoringError) : String :=
  match e.handler with
  | some handler => if handler = "" then e.defect.message else s!"{handler}: {e.defect.message}"
  | none => e.defect.message

inductive Fault where
  /-- Digits in a place where an index is read that are not all decimal digits, or too many. -/
  | indexNumeral (segment : String)
  /-- An example response in a route that is not JSON. -/
  | exampleNotJson (e : Json.ReadError)
  /-- A resource tag whose name goes over several lines. -/
  | resourceNameBroken (content : String)
  /-- A module name that starts with a point. -/
  | relativeModule (name : String)
  /-- A class that names a base not defined before it. -/
  | baseUndefined (name : String)
  /-- A base that is no class, or bases that cannot be put in one order. -/
  | basesUnusable (name : String)
  /-- The body of a call holds a configured value that JSON has no word for. -/
  | unsendable
  /-- An integer of too many digits in a text that is read as JSON. -/
  | integerTooLong
  deriving Repr

/-- Why the source of a resource method cannot be read. -/
inductive SourceGap where
  | noSource
  /-- The method is a plain value, of the type with this name. -/
  | notCode (type : String)
  deriving DecidableEq, Repr

def SourceGap.message : SourceGap → String
  | noSource => "source code not available"
  | notCode type =>
    "module, class, method, function, traceback, frame, or code object was expected, got " ++ type

inductive Failure where
  | authoring (e : AuthoringError)
  | sourceUnavailable (resource : String) (gap : SourceGap)
  /-- No sample can be written in this language. -/
  | unknownLanguage (language : String)
  | fault (f : Fault)
  deriving Repr

/-- What is reported of a failure; a fault ends the run without a word. -/
def Failure.message? : Failure → Option String
  | .authoring e => some e.message
  | .sourceUnavailable resource gap =>
    some s!"cannot read source of {resource}.{Defect.resourceMethod}: {gap.message}"
  | .unknownLanguage language =>
    some s!"No code sample template for language {Text.quotedString language}"
  | .fault _ => none

/-- A failure by a defect, not yet tied to a handler. -/
def Failure.defect (d : Defect) : Failure := .authoring { defect := d }

/-- Say where a defect was found; other failures stay as they are. -/
def Failure.within (place : Defect → Defect) : Failure → Failure
  | .authoring e => .authoring { e with defect := place e.defect }
  | f => f

/-- Tie an authoring error without a handler to one. -/
def Failure.tie (handler : String) : Failure → Failure
  | .authoring e => .authoring { e with handler := some (e.handler.getD handler) }
  | f => f

end ApiManual
