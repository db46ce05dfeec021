import ApiManual.Entries
import ApiManual.Failure
import ApiManual.Source.FunctionDoc
import ApiManual.Source.Given

/-!
# Modules

A module is a docstring and named nodes. `Item`s are nodes as they are written, with the bases of a class
given by name; `linkModule` puts for these the classes defined before. A linked class holds one layer for
itself and one for each class it inherits from, in the order in which attributes are looked up.

`Node.attribute?` and `Module.attribute?` find what was written first, then what everything has.
-/

namespace ApiManual.Source

/-- A value that is no code. -/
inductive PlainValue where
  | integer
  | text
  deriving DecidableEq, Repr, Inhabited

inductive Item where
  | function (doc : Option String)
  /-- A function of which only the source matters. -/
  | source (lines : List String)
  /-- A function whose source cannot be found. -/
  | sourceless
  /-- A name bound to nothing. -/
  | nothing
  | value (v : PlainValue)
  | cls (doc : Option String) (attributes : List (String × Item)) (bases : List String)
  deriving Repr, Inhabited

mutual

inductive Node where
  | function (doc : Option String)
  | source (lines : List String)
  | sourceless
  | nothing
  | value (v : PlainValue)
  /-- A class: its own layer, then those it inherits from. -/
  | cls (layers : List Layer)
  /-- A thing that nobody wrote, with its documentation. -/
  | thing (doc : Option String)
  deriving Repr

/-- What one class defines itself; the path leads to the class in its module. -/
inductive Layer where
  | mk (path : List String) (doc : Option String) (attributes : List (String × Node))
  deriving Repr

end

instance : Inhabited Node := ⟨.nothing⟩

instance : Inhabited Layer := ⟨.mk [] none []⟩

def Layer.path : Layer → List String
  | mk path _ _ => path

def Layer.name (layer : Layer) : String := layer.path.getLast?.getD ""

def Layer.doc : Layer → Option String
  | mk _ doc _ => doc

def Layer.attributes : Layer → List (String × Node)
  | mk _ _ attributes => attributes

structure Module where
  doc : Option String := none
  attributes : Entries Node := []
  deriving Repr, Inhabited

/-- The modules that can be imported. -/
abbrev Modules := Entries Module

/-! ## The order of inheritance -/

/-- A layer that stands first somewhere and nowhere behind the first place. -/
def nextLayer? (orders : List (List Layer)) : Option Layer :=
  orders.findSome? fun order => match order with
    | [] => none
    | layer :: _ =>
      if orders.any fun other => other.tail.any (·.path == layer.path) then none else some layer

/-- Merge orders so that each is kept, taking from the earliest that allows it. -/
def mergeOrders : Nat → List (List Layer) → Option (List Layer)
  | 0, _ => some []
  | fuel + 1, orders =>
    if orders.all (·.isEmpty) then some []
    else match nextLayer? orders with
      | none => none
      | some layer =>
        let rest := orders.map fun order =>
          if order.head?.any (·.path == layer.path) then order.tail else order
        (mergeOrders fuel rest).map (layer :: ·)

/-- The layers that a class with these bases inherits. -/
def inherited? (bases : List (List Layer)) : Option (List Layer) :=
  let orders := bases ++ [bases.filterMap (·.head?)]
  mergeOrders orders.flatten.length orders

/-! ## Linking -/

/-- The classes defined so far in a module, in whatever class, by their names; the last one of a name
counts. -/
abbrev KnownClasses := Entries (List Layer)

def KnownClasses.layers (known : KnownClasses) (base : String) : Except Fault (List Layer) :=
  match known.get? base with
  | none => .error (.baseUndefined base)
  | some layers => .ok layers

mutual

/-- Link one item at its path after the classes known so far. -/
def linkItem (known : KnownClasses) (path : List String) : Item → Except Fault (Node × KnownClasses)
  | .function doc => .ok (.function doc, known)
  | .source lines => .ok (.source lines, known)
  | .sourceless => .ok (.sourceless, known)
  | .nothing => .ok (.nothing, known)
  | .value v => .ok (.value v, known)
  | .cls doc attributes bases => do
    let (own, known) ← linkItems known path attributes
    match inherited? (← bases.mapM known.layers) with
    | some inherited =>
      let layers := .mk path doc own :: inherited
      .ok (.cls layers, known.set (path.getLast?.getD "") layers)
    | none => .error (.basesUnusable (path.getLast?.getD ""))

/-- Link items in order, each after the ones before it. -/
def linkItems (known : KnownClasses) (path : List String) :
    List (String × Item) → Except Fault (List (String × Node) × KnownClasses)
  | [] => .ok ([], known)
  | (name, item) :: items => do
    let (node, known) ← linkItem known (path ++ [name]) item
    let (nodes, known) ← linkItems known path items
    .ok ((name, node) :: nodes, known)

end

def linkModule (doc : Option String) (items : List (String × Item)) : Except Fault Module := do
  .ok { doc, attributes := (← linkItems [] [] items).1 }

/-! ## Documentation -/

/-- The docstring of a node: a class does not inherit one, and a plain value has that of its type. -/
def Node.doc : Node → Option String
  | .function doc | .thing doc => doc
  | .source lines => functionDoc? lines
  | .cls layers => layers.head?.bind (·.doc)
  | .value .integer => some integerDoc
  | .value .text => some textDoc
  | .sourceless | .nothing => none

/-! ## Attributes -/

def Given.node : Given → Node
  | integer => .value .integer
  | text => .value .text
  | thing doc => .thing doc

/-- A class that no module defines. -/
def givenClass (name doc : String) : Node := .cls [.mk [name] (some doc) []]

/-- The class of a node. -/
def Node.cls? : Node → Option Node
  | .function _ | .source _ | .sourceless => some (givenClass "function" functionClassDoc)
  | .cls _ => some (givenClass "type" typeClassDoc)
  | .value .integer => some (givenClass "int" integerDoc)
  | .value .text => some (givenClass "str" textDoc)
  | .thing _ | .nothing => none

/-- The attributes that nodes of this kind have beside the common ones. -/
def Node.givenAttributes : Node → List (String × Given)
  | .function _ | .source _ | .sourceless => functionAttributes
  | .cls _ => classAttributes
  | .value .integer => integerAttributes
  | .value .text => textAttributes
  | .thing _ | .nothing => []

/-- An attribute that nobody wrote. -/
def Node.given? (node : Node) (name : String) : Option Node :=
  match node, name with
  | .nothing, _ => none
  | node, "__doc__" => node.doc.map fun _ => .value .text
  | node, "__class__" => node.cls?
  | .cls (_ :: inherited), "__base__" =>
    some (if inherited.isEmpty then givenClass "object" objectClassDoc else .cls inherited)
  | node, name => ((node.givenAttributes ++ commonAttributes).lookup name).map Given.node

/-- An attribute of a node: what the first layer that defines it says, or what nobody wrote. -/
def Node.attribute? (node : Node) (name : String) : Option Node :=
  let written := match node with
    | .cls layers => layers.findSome? fun (layer : Layer) => layer.attributes.lookup name
    | _ => none
  written.orElse fun _ => node.given? name

def Module.attribute? (m : Module) (name : String) : Option Node :=
  (m.attributes.get? name).orElse fun _ => match name with
    | "__doc__" => m.doc.map fun _ => .value .text
    | "__class__" => some (givenClass "module" moduleClassDoc)
    | name => ((moduleAttributes ++ commonAttributes).lookup name).map Given.node

/-- A node, unless the name is bound to nothing. -/
def Node.present? : Node → Option Node
  | .nothing => none
  | node => some node

end ApiManual.Source
