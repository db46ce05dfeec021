import ApiManual.Json.Basic
import ApiManual.Source.Module

/-!
# Modules described as JSON

Modules can be given as one object from names to descriptions, each with `doc` and `attrs`. A node of
`attrs` has a `kind` and what belongs to it; the order of the attributes is the order of their
definition.
-/

namespace ApiManual.Source

def member (fields : Entries Json) (name : String) : Json := (fields.get? name).getD .null

def text? : Json → Option String
  | .str s => some s
  | _ => none

/-- The texts of a list. -/
def texts : Json → List String
  | .arr items => items.filterMap text?
  | _ => []

def PlainValue.ofJson : Json → PlainValue
  | .str _ => .text
  | _ => .integer

/-- An item of a kind; for a class, from its attributes. -/
def Item.ofParts (fields : Entries Json) (attributes : List (String × Item)) : Item :=
  let doc := text? (member fields "doc")
  match text? (member fields "kind") with
  | some "function" => .function doc
  | some "class" => .cls doc attributes (texts (member fields "bases"))
  | some "source" => .source (texts (member fields "lines"))
  | some "nosource" => .sourceless
  | some "value" => .value (.ofJson (member fields "value"))
  | _ => .nothing

mutual

def Item.ofJson : Json → Item
  | .obj fields => .ofParts fields (attributesOf fields)
  | _ => .nothing

/-- The items under `attrs`. -/
def attributesOf : List (String × Json) → List (String × Item)
  | [] => []
  | (name, .obj attributes) :: fields =>
    if name = "attrs" then itemsOf attributes else attributesOf fields
  | _ :: fields => attributesOf fields

def itemsOf : List (String × Json) → List (String × Item)
  | [] => []
  | (name, v) :: fields => (name, Item.ofJson v) :: itemsOf fields

end

def Module.ofJson (description : Json) : Except Fault Module :=
  linkModule (text? (member description.members "doc")) (attributesOf description.members)

/-- The modules of a description. -/
def Modules.ofJson (description : Json) : Except Fault Modules :=
  description.members.mapM fun (name, m) => do return (name, ← Module.ofJson m)

end ApiManual.Source
