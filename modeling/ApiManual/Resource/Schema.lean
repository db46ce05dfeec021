import ApiManual.Docstring
import ApiManual.Resource.Example
import ApiManual.Resource.Tree

/-!
# Resource schemas

A `@responseResource [status] <class>` tag names a resource. Its `ResourceSource` gives the docstring
of the class and the lines of the method that builds the payload; `ResourceSchema.ofTag` reads both.
-/

namespace ApiManual

open Text

structure ResourceSource where
  name : String
  docstring : Option String := none
  lines : List String
  deriving Repr, Inhabited

/-- Finds the source of a resource by its dotted name. -/
abbrev ResourceLookup := String → Except Failure ResourceSource

structure ResourceSchema where
  name : String
  status : String := "200"
  description : String := ""
  properties : Fields := []
  payload : Entries Json := []
  deriving Repr, Inhabited

/-- The status digits and the name of a resource tag; the name is one line. -/
def resourceName (content : String) : Except Fault (String × String) :=
  let cs := trim content.toList
  let name := trimLeft (cs.dropWhile isDecimal)
  if name.contains '\n' then .error (.resourceNameBroken content)
  else .ok (String.ofList (cs.takeWhile isDecimal), String.ofList name)

/-- Three decimal digits, the first an ASCII one from 1 to 5. -/
def isStatus (status : String) : Bool :=
  match status.toList with
  | [a, b, c] => '1' ≤ a && a ≤ '5' && isDecimal b && isDecimal c
  | _ => false

/-- The first text that is not empty. -/
def firstNonempty : List String → String
  | [] => ""
  | s :: rest => if s = "" then firstNonempty rest else s

/-- The status of a resource: its own, else that of its tag, which is empty if there is none. -/
def ResourceSource.status (source : ResourceSource) (declared : String) : String :=
  let own := match (Docstring.read? source.docstring).first? "resourceStatus" with
    | some tag => String.ofList (trim tag.content.toList)
    | none => ""
  firstNonempty [own, declared, "200"]

namespace ResourceSchema

/-- The schema of a resource; `declared` is the status of its tag. -/
def ofSource (resource declared : String) (source : ResourceSource) : Except Failure ResourceSchema := do
  let doc := Docstring.read? source.docstring
  let properties ← match Fields.ofLines source.lines with
    | .ok fields => pure fields
    | .error d => throw (.defect (.inResource resource d))
  let status := source.status declared
  if !isStatus status then throw (.defect (.notAStatus resource status))
  if anyOverlong properties then throw (.fault .integerTooLong)
  return { name := ((doc.first? "resourceName").map (·.content)).getD source.name
           status
           description := ((doc.first? "resourceDescription").map (·.content)).getD ""
           properties
           payload := examplePayload properties }

def ofTag (lookup : ResourceLookup) (tag : Tag) : Except Failure ResourceSchema :=
  match resourceName tag.content with
  | .error f => .error (.fault f)
  | .ok (status, name) => do ofSource name status (← lookup name)

/-- The schemas of all resource tags, in order. -/
def ofTags (lookup : ResourceLookup) (tags : List Tag) : Except Failure (List ResourceSchema) :=
  (tags.filter (·.name == "responseResource")).mapM (ofTag lookup)

/-- The status as a number. -/
def statusCode (schema : ResourceSchema) : Int :=
  (Number.readInteger? schema.status.toList).getD 200

end ResourceSchema

end ApiManual
