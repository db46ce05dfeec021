import ApiManual.Param.Nested

/-!
# Values that are written into

The list or object that a parameter was given is one value, wherever it is placed: what a later name
writes into it stays in it, also after the expansion. `expand` tells the first expansion of parameters;
here are the ones after it.

* A `Shape` is a value whose parts may be the values of parameters; a `Store` holds these.
* `put` places a shape below a container. What is made on the way stays even if the name has no place.
* `Store.expand` expands parameters and gives the store as it is left.
-/

namespace ApiManual

inductive Shape where
  | leaf (v : Json)
  | list (items : List Shape)
  | table (fields : List (String × Shape))
  /-- The value of the parameter of this name. -/
  | valueOf (name : String)
  deriving Repr

instance : Inhabited Shape := ⟨.leaf .null⟩

/-- The lists and objects that parameters were given, by the names of the parameters. -/
abbrev Store := Entries Shape

mutual

def Shape.ofJson : Json → Shape
  | .arr items => .list (shapesOf items)
  | .obj fields => .table (fieldShapes fields)
  | v => .leaf v

def shapesOf : List Json → List Shape
  | [] => []
  | v :: vs => .ofJson v :: shapesOf vs

def fieldShapes : List (String × Json) → List (String × Shape)
  | [] => []
  | (name, v) :: fields => (name, .ofJson v) :: fieldShapes fields

end

mutual

/-- The value of a shape, the values of parameters given. -/
def Shape.value (values : Entries Json) : Shape → Json
  | .leaf v => v
  | .list items => .arr (shapeValues values items)
  | .table fields => .obj (fieldValues values fields)
  | .valueOf name => (values.get? name).getD .null

def shapeValues (values : Entries Json) : List Shape → List Json
  | [] => []
  | s :: ss => s.value values :: shapeValues values ss

def fieldValues (values : Entries Json) : List (String × Shape) → List (String × Json)
  | [] => []
  | (name, s) :: fields => (name, s.value values) :: fieldValues values fields

end

def Shape.isContainer : Shape → Bool
  | .leaf _ => false
  | _ => true

/-- The container that is to hold the next key, as `containerFor` says of values. -/
def Shape.containerFor (next : String) (there : Shape) : Shape :=
  if there.isContainer then there
  else if Text.isDigits next.toList then .list [] else .table []

namespace Store

/-- What was given to parameters: their lists and objects. -/
def ofParams (params : Entries Param) : Store :=
  params.filterMap fun (name, p) => if p.value.isContainer then some (name, .ofJson p.value) else none

/-- The values in the store, to a depth of values in values. -/
def valuesTo (store : Store) : Nat → Entries Json
  | 0 => []
  | depth + 1 =>
    let inner := store.valuesTo depth
    store.map fun (name, s) => (name, s.value inner)

/-- The values in the store. A value holds only those of longer names, so the depth is bounded. -/
def values (store : Store) : Entries Json := store.valuesTo store.length

/-- The list or table that a shape stands for. -/
def look (store : Store) : Shape → Shape
  | .valueOf name => (store.get? name).getD default
  | s => s

/-- Put a changed list or table where it was found. -/
def back (store : Store) (there changed : Shape) : Shape × Store :=
  match there with
  | .valueOf name => (.valueOf name, store.set name changed)
  | _ => (changed, store)

/-- Place a shape below a container, and say what is wrong with the rest of the keys. -/
def put (value : Shape) : List String → Store → Shape → Shape × Store × Option Misplaced
  | [], store, there => (there, store, none)
  | [key], store, there =>
    match store.look there with
    | .list items => match listIndex key with
      | .error e => (there, store, some e)
      | .ok i =>
        let (s, store) := store.back there (.list (setItem default items i value))
        (s, store, none)
    | .table fields =>
      let (s, store) := store.back there (.table (Entries.set fields key value))
      (s, store, none)
    | _ => (there, store, none)
  | key :: next :: rest, store, there =>
    match store.look there with
    | .list items => match listIndex key with
      | .error e => (there, store, some e)
      | .ok i =>
        let (child, store, fault) := put value (next :: rest) store (Shape.containerFor next (items.getD i default))
        let (s, store) := store.back there (.list (setItem default items i child))
        (s, store, fault)
    | .table fields =>
      let (child, store, fault) :=
        put value (next :: rest) store (Shape.containerFor next ((Entries.get? fields key).getD default))
      let (s, store) := store.back there (.table (Entries.set fields key child))
      (s, store, fault)
    | _ => (there, store, none)

/-- Place parameters below a container up to the first one that has no place. -/
def putAll : List (String × Param) → Store → Shape → Except Failure Shape × Store
  | [], store, there => (.ok there, store)
  | (name, p) :: params, store, there =>
    let value := if p.value.isContainer then .valueOf name else .ofJson p.decoded
    match put value (segments name) store there with
    | (there, store, none) => putAll params store there
    | (_, store, some e) => (.error (e.failure name), store)

/-- Expand parameters whose values are in the store. -/
def expand (params : Entries Param) (store : Store) : Except Failure (Entries Json) × Store :=
  let (result, store) := putAll params store (.table [])
  (result.map fun s => (s.value store.values).members, store)

/-- The parameters with the values that the store holds for them. -/
def settle (params : Entries Param) (store : Store) : Entries Param :=
  let values := store.values
  params.map fun (name, p) => (name, { p with value := (values.get? name).getD p.value })

end Store

end ApiManual
