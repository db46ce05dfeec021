import ApiManual.Param.Basic
import ApiManual.Text.Search
import ApiManual.Text.Word

/-!
# Parameter tags

The content of a parameter tag is `<name> <type> [required] [description [Example: <value>]]`.

* `TagParts.ofContent` parts it; two tokens are enough, and `required` counts as the third token.
* `takeExample` cuts the example off a description, at the first `Example:` that does not continue a
  word.
* `Param.ofTag` puts both together and draws a placeholder where there is no example.
-/

namespace ApiManual

open Text

structure TagParts where
  name : String
  type : String
  required : Bool
  description : String
  deriving DecidableEq, Repr

def requiredWord : List Char := "required".toList

/-- Whether the text begins with the token `required`, and what follows it. -/
def takeRequired (cs : List Char) : Bool × List Char :=
  if firstToken cs = requiredWord then (true, trimLeft (afterToken cs)) else (false, cs)

/-- The parts of a content without blanks around it. -/
def TagParts.ofTrimmed? (cs : List Char) : Option TagParts :=
  let name := firstToken cs
  let rest := trimLeft (afterToken cs)
  let type := firstToken rest
  if name.isEmpty || type.isEmpty then none
  else
    let (required, description) := takeRequired (trimLeft (afterToken rest))
    some { name := String.ofList name, type := String.ofList type, required,
           description := String.ofList description }

def TagParts.ofContent (content : String) : Except Defect TagParts :=
  match TagParts.ofTrimmed? (trim content.toList) with
  | some parts => .ok parts
  | none => .error (.tagGrammar (String.ofList (trim content.toList)))

/-! ## Examples -/

def exampleMark : List Char := "Example:".toList

/-- The text before and after the first example mark that does not continue a word; `inWord` says
whether the text before ends in a word character. -/
def splitAtExample? : Bool → List Char → Option (List Char × List Char)
  | _, [] => none
  | inWord, c :: cs =>
    if !inWord && exampleMark.isPrefixOf (c :: cs) then
      some ([], (c :: cs).drop exampleMark.length)
    else (splitAtExample? (isWordChar c) cs).map fun parts => (c :: parts.1, parts.2)

/-- The description without its example, and the example cast to the type. -/
def takeExample (description : String) (type : ValueType) : Except Defect (String × Option Json) :=
  match splitAtExample? false description.toList with
  | none => .ok (description, none)
  | some (before, after) => do
    let value ← type.cast (String.ofList (trim after))
    .ok (String.ofList (trim before), some value)

/-! ## Parameters -/

/-- The name and the parameter that a tag declares. -/
def Param.ofTag (content : String) (g : Generator) : Except Defect (String × Param) × Generator :=
  match TagParts.ofContent content with
  | .error d => (.error d, g)
  | .ok parts =>
    let type := ValueType.normalize parts.type
    match takeExample parts.description type with
    | .error d => (.error d, g)
    | .ok (description, some value) =>
      (.ok (parts.name, { type, description, required := parts.required, value }), g)
    | .ok (description, none) =>
      let (value, g) := type.placeholder g
      (.ok (parts.name, { type, description, required := parts.required, value }), g)

end ApiManual
