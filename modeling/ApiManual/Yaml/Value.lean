import ApiManual.Yaml.Meaning
import ApiManual.Yaml.Merge

/-!
# Settings from YAML

`read` gives the setting that a text spells.

* **Faults.** A mistake in the form of the text comes first. Then nodes are read level by level:
  `Document.check` finds the first one that has no value.
* **Settings.** `Document.setting` builds the value of a node. A value that holds itself is unfolded as far
  as a configuration is deep, and ends in `Setting.endless`.
-/

namespace ApiManual.Yaml

/-- What stands for a node of a scalar kind: a mapping has a default value under a key of that kind. With
the number of steps that lead there. -/
def Node.standIn : Node → Node × Nat
  | .mapping kind entries => defaultOf (.mapping kind entries) entries
  | node => (node, 0)
where
  defaultOf (whole : Node) : List (Node × Node) → Node × Nat
    | [] => (whole, 0)
    | (key, value) :: entries =>
      if key.kind == .defaultKey then
        let (node, steps) := value.standIn
        (node, steps + 1)
      else defaultOf whole entries

namespace Document

/-- Whether the steps from one default value to the next, after so many of them, run in a circle. -/
def circles (d : Document) (anchor : String) (steps : Nat) : Bool :=
  match (d.named? anchor).map Node.standIn with
  | some (.enclosing back, length) => back == anchor && length ≤ steps
  | _ => false

/-- The text of a node of a scalar kind. -/
def text (d : Document) (node : Node) : Except Error String :=
  match node.standIn with
  | (.scalar _ text, _) => .ok text
  | (.enclosing anchor, steps) =>
    .error (if d.circles anchor steps then .unreadable .endless else .kindMismatch)
  | _ => .error .kindMismatch

/-- The value of a node of a scalar kind. -/
def scalarValue (d : Document) (node : Node) : Except Error Setting := do
  let text ← d.text node
  match node.kind, node with
  | .timestamp, .mapping .. => .error (.unreadable .timestampMapping)
  | kind, _ => scalarSetting kind text

/-! ## Faults -/

/-- Meet a node: a scalar is read at once, a collection is left for the next level. -/
def meet (d : Document) (node : Node) : Except Error (List Node) :=
  match node with
  | .enclosing _ => .ok []
  | node =>
    if node.kind.isScalar then (fun _ => []) <$> d.scalarValue node
    else if node.kind.isCollection then .ok [node]
    else .error .tagUnknown

def meetAll (d : Document) (nodes : List Node) : Except Error (List Node) := do
  return (← nodes.mapM d.meet).flatten

/-- Meet the entries of a mapping, whose keys are scalars. -/
def meetEntries (d : Document) (entries : List (Node × Node)) : Except Error (List Node) := do
  let levels ← entries.mapM fun (key, value) => do
    let _ ← d.meet key
    if !key.kind.isScalar then throw .keyNotScalar
    d.meet value
  return levels.flatten

/-- Meet an item of a list of pairs: a mapping with one entry, which merges nothing. -/
def meetPair (d : Document) (item : Node) : Except Error (List Node) :=
  match d.resolve item with
  | .mapping _ [(key, value)] => do return (← d.meet key) ++ (← d.meet value)
  | _ => .error .kindMismatch

/-- Meet what a collection holds. -/
def meetInside (d : Document) (node : Node) : Except Error (List Node) :=
  match node.kind, node with
  | .list, .sequence _ items => d.meetAll items
  | .map, .mapping _ entries | .set, .mapping _ entries => do d.meetEntries (← d.merged entries)
  | .orderedMap, .sequence _ items | .pairs, .sequence _ items => do
    return (← items.mapM d.meetPair).flatten
  | _, _ => .error .kindMismatch

/-- Meet collections and, level by level, what they hold. -/
def meetLevels (d : Document) : Nat → List Node → Except Error Unit
  | 0, _ => .ok ()
  | levels + 1, nodes =>
    if nodes.isEmpty then .ok ()
    else do d.meetLevels levels (← nodes.mapM d.meetInside).flatten

/-- Find the first fault of a document. Every node stands at a level that is no deeper than the document. -/
def check (d : Document) : Except Error Unit := do d.meetLevels (d.root.depth + 1) (← d.meet d.root)

/-! ## Settings -/

/-- The level down to which a value that holds itself is unfolded: below it, checks ask for texts only. -/
def unfoldedLevels : Nat := 5

/-- The setting of a node of a document without faults. -/
def settingTo (d : Document) : Nat → Nat → Node → Setting
  | 0, _, _ => .endless
  | fuel + 1, level, node =>
    let inside := settingTo d fuel (level + 1)
    let pairOf (item : Node) : Setting := match d.resolve item with
      | .mapping _ [(key, value)] => .pair (inside key) (inside value)
      | _ => .null
    let entriesOf (entries : List (Node × Node)) : List (Setting × Setting) :=
      ((d.merged entries).toOption.getD []).foldl
        (fun table (key, value) => Setting.setKey (inside key) (inside value) table) []
    match node.kind, node with
    | _, .enclosing anchor =>
      if level > unfoldedLevels then .endless
      else settingTo d fuel level ((d.named? anchor).getD default)
    | .list, .sequence _ items => .list (items.map inside)
    | .orderedMap, .sequence _ items | .pairs, .sequence _ items => .list (items.map pairOf)
    | .map, .mapping _ entries => .table (entriesOf entries)
    | .set, .mapping _ entries => .set ((entriesOf entries).map (·.1))
    | _, node => (d.scalarValue node).toOption.getD .null

/-- The setting of a document without faults. -/
def setting (d : Document) : Setting := d.settingTo (d.root.depth + 2 * unfoldedLevels + 2) 0 d.root

end Document

/-- The setting that a text spells; a text without a document is null. -/
def read (cs : List Char) : Except Error Setting := do
  match ← Document.ofTokens? (tokens cs) with
  | none => .ok .null
  | some d => do
    d.check
    return d.setting

end ApiManual.Yaml
