import ApiManual.Resource.Schema
import ApiManual.Source.Module
import ApiManual.Text.Quoted

/-!
# Handlers and resources in modules

`Modules.handler` finds the docstrings of a handler `package.module:Class.method`, and
`Modules.resource` the source of a resource class. A handler that is not defined is no error.
-/

namespace ApiManual

open Text

/-- The docstrings of a handler and of its owner, a class or a module. -/
structure HandlerSource where
  identity : String
  doc : Option String := none
  ownerDoc : Option String := none
  deriving DecidableEq, Repr, Inhabited

namespace Source

/-- Why a module cannot be imported. -/
inductive Unimportable where
  | relative
  | absent (reason : String)
  deriving Repr

/-- The text before and after the last occurrence of a character, if there is one. -/
def splitAtLast? (separator : Char) (cs : List Char) : Option (List Char × List Char) :=
  match cs.reverse.dropWhile (· != separator) with
  | [] => none
  | _ :: before => some (before.reverse, (cs.reverse.takeWhile (· != separator)).reverse)

/-- The reason why a module that is not listed cannot be imported: its nearest parent is at fault. -/
def absence (modules : Modules) : Nat → List Char → String
  | 0, name => s!"No module named {quotedString (String.ofList name)}"
  | fuel + 1, name =>
    match splitAtLast? '.' name with
    | none => s!"No module named {quotedString (String.ofList name)}"
    | some (parent, _) =>
      if modules.has (String.ofList parent) then
        s!"No module named {quotedString (String.ofList name)}; " ++
          s!"{quotedString (String.ofList parent)} is not a package"
      else absence modules fuel parent

def importModule (modules : Modules) (name : String) : Except Unimportable Module :=
  if name.toList.head? = some '.' then .error .relative
  else match modules.get? name with
    | some m => .ok m
    | none => .error (.absent (absence modules name.length name.toList))

/-- What attributes are looked up in. -/
inductive Owner where
  | module (m : Module)
  | node (n : Node)

def Owner.doc : Owner → Option String
  | module m => m.doc
  | node n => n.doc

def Owner.attribute? (owner : Owner) (name : String) : Option Node :=
  match owner with
  | module m => (m.attribute? name).bind (·.present?)
  | node n => (n.attribute? name).bind (·.present?)

/-- Follow a path of attributes. -/
def Owner.follow? : Owner → List String → Option Owner
  | owner, [] => some owner
  | owner, name :: path => (owner.attribute? name).bind fun n => (Owner.node n).follow? path

/-- The path to the owner, its text and the attribute's name. -/
def ownerPath (path : List Char) : List String × String × String :=
  match splitAtLast? '.' path with
  | none => ([], "", String.ofList path)
  | some (owner, name) =>
    (if owner.isEmpty then [] else (splitOn '.' owner).map String.ofList, String.ofList owner,
      String.ofList name)

end Source

open Source

/-- A failure by a defect of the handler of this identity. -/
def handlerFailure (identity : String) (d : Defect) : Failure :=
  .authoring { defect := d, handler := some identity }

/-- The docstrings of a handler, or nothing if it is not defined in its owner. -/
def Source.Modules.handler (modules : Modules) (identity : String) :
    Except Failure (Option HandlerSource) := do
  let some (moduleName, path) := splitAtFirst? [':'] identity.toList
    | throw (handlerFailure identity .handlerForm)
  if moduleName.isEmpty || path.isEmpty then throw (handlerFailure identity .handlerForm)
  let name := String.ofList moduleName
  let m ← match importModule modules name with
    | .ok m => pure m
    | .error .relative => throw (.fault (.relativeModule name))
    | .error (.absent reason) => throw (handlerFailure identity (.moduleUnavailable name reason))
  let (owners, ownerText, function) := ownerPath path
  let some owner := (Owner.module m).follow? owners
    | throw (handlerFailure identity (.ownerMissing name ownerText))
  return (owner.attribute? function).map fun n => { identity, doc := n.doc, ownerDoc := owner.doc }

/-- The class that a dotted name stands for, as its layers. -/
def Source.Modules.classLayers? (modules : Modules) (dotted : String) : Except Failure (Option (List Layer)) :=
  match splitAtLast? '.' (replaceAll [':'] ['.'] dotted.toList) with
  | none => .ok none
  | some (moduleName, className) =>
    if moduleName.isEmpty then .ok none
    else match importModule modules (String.ofList moduleName) with
      | .error .relative => .error (.fault (.relativeModule (String.ofList moduleName)))
      | .error (.absent _) => .ok none
      | .ok m => match m.attribute? (String.ofList className) with
        | some (.cls layers) => .ok (some layers)
        | _ => .ok none

/-- The lines of a method. -/
def methodLines (method : Node) : Except SourceGap (List String) :=
  match method with
  | .source lines => .ok (lines.map (· ++ "\n"))
  | .value .integer => .error (.notCode "int")
  | .value .text => .error (.notCode "str")
  | _ => .error .noSource

/-- The source of a resource class. -/
def Source.Modules.resource (modules : Modules) : ResourceLookup := fun dotted => do
  let some layers ← modules.classLayers? dotted | throw (.defect (.resourceMissing dotted))
  let some method := ((Node.cls layers).attribute? Defect.resourceMethod).bind (·.present?)
    | throw (.defect (.resourceMethodMissing dotted))
  match methodLines method with
  | .ok lines =>
    return { name := (layers.head?.map (·.name)).getD "", docstring := (Node.cls layers).doc, lines }
  | .error gap => throw (.sourceUnavailable dotted gap)

end ApiManual
