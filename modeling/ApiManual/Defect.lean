import ApiManual.Json.Reader
import ApiManual.Text.Quoted
import ApiManual.ValueType

/-!
# Defects of documented sources

A `Defect` is a mistake that the author of a handler or a resource has to mend. `inTag`, `atLine` and
`inResource` say where it was found; `Defect.message` words it, and `Defect.kind` is the same with and
without a place.
-/

namespace ApiManual

inductive Defect where
  /-- A parameter tag without a name and a type. -/
  | tagGrammar (content : String)
  | badExample (value : String) (type : ValueType)
  /-- A name enters a list by a key that is no index. -/
  | mixedNotation (name : String)
  | responseNotJson (e : Json.ReadError)
  | handlerForm
  | moduleUnavailable (module reason : String)
  | ownerMissing (module path : String)
  | resourceMissing (name : String)
  /-- A resource that a plain table of resources does not list. -/
  | resourceUnlisted (name : String)
  /-- A resource without the method that builds its payload. -/
  | resourceMethodMissing (name : String)
  | notAStatus (resource status : String)
  /-- Fields with a scope that is never closed, with their lines. -/
  | scopesOpen (fields : List (String × Int))
  | inTag (tag : String) (d : Defect)
  | atLine (line : Nat) (d : Defect)
  | inResource (resource : String) (d : Defect)
  deriving Repr

namespace Defect

inductive Kind where
  /-- A tag does not match its grammar. -/
  | grammar
  /-- A handler does not point at code. -/
  | handler
  /-- A resource cannot be used. -/
  | resource
  /-- The scopes of nested fields do not close. -/
  | scopes
  deriving DecidableEq, Repr

def kind : Defect → Kind
  | tagGrammar _ | badExample .. | mixedNotation _ | responseNotJson _ => .grammar
  | handlerForm | moduleUnavailable .. | ownerMissing .. => .handler
  | resourceMissing _ | resourceUnlisted _ | resourceMethodMissing _ | notAStatus .. => .resource
  | scopesOpen _ => .scopes
  | inTag _ d | atLine _ d | inResource _ d => d.kind

open Text

def resourceMethod : String := "to_dict"

def message : Defect → String
  | tagGrammar content =>
    s!"cannot parse parameter tag {quotedString content}, expected '<name> <type> [required] [description]'"
  | badExample value type => s!"example {quotedString value} is not a valid {type.name}"
  | mixedNotation name => s!"parameter {quotedString name} mixes list and object notation"
  | responseNotJson e => s!"@response body is not valid JSON: {e.message}"
  | handlerForm => "expected a handler of the form 'package.module:Class.method'"
  | moduleUnavailable module reason => s!"cannot import module {quotedString module}: {reason}"
  | ownerMissing module path => s!"{module} has no attribute {quotedString path}"
  | resourceMissing name =>
    s!"Error in @responseResource annotation: class '{name}' does not exist.\n\n" ++
    "Please provide the fully qualified class name, including the module.\n" ++
    "Example: @responseResource app.resources.UserResource\n\n" ++
    "To document a different status code, put it before the class name.\n" ++
    "Example: @responseResource 201 app.resources.UserResource"
  | resourceUnlisted name => s!"class '{name}' does not exist"
  | resourceMethodMissing name =>
    s!"Error in @responseResource annotation: class '{name}' has no {resourceMethod}() method " ++
    "to read @responseParam comments from."
  | notAStatus resource status =>
    s!"{resource}: @resourceStatus {quotedString status} is not an HTTP status code"
  | scopesOpen fields =>
    "nested @responseParam scope never closed for " ++
      ", ".intercalate (fields.map fun (name, line) => s!"'{name}' (line {line})")
  | inTag tag d => s!"@{tag}: {d.message}"
  | atLine line d => s!"line {line}: {d.message}"
  | inResource resource d => s!"{resource}.{resourceMethod} {d.message}"

end Defect

end ApiManual
