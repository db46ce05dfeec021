import ApiManual.Yaml.Node

/-!
# Merged mappings

A key of the merge kind puts the entries of the mappings that it names in front of the other entries of
its mapping: `Document.merged` gives all of them. The key of a default value is a text in a mapping.
-/

namespace ApiManual.Yaml

namespace Node

def kind : Node → Kind
  | scalar kind _ | sequence kind _ | mapping kind _ => kind
  | enclosing _ => .unknown

/-- A key as it stands in a mapping. -/
def asKey : Node → Node
  | scalar .defaultKey text => scalar .str text
  | sequence .defaultKey items => sequence .str items
  | mapping .defaultKey entries => mapping .str entries
  | node => node

mutual

/-- The number of nodes that stand in one another. -/
def depth : Node → Nat
  | scalar .. | enclosing _ => 1
  | sequence _ items => itemsDepth items + 1
  | mapping _ entries => entriesDepth entries + 1

def itemsDepth : List Node → Nat
  | [] => 0
  | item :: items => max (depth item) (itemsDepth items)

def entriesDepth : List (Node × Node) → Nat
  | [] => 0
  | (key, value) :: entries => max (max (depth key) (depth value)) (entriesDepth entries)

end

end Node

namespace Document

/-- A collection for an alias inside it. -/
def resolve (d : Document) : Node → Node
  | .enclosing anchor => (d.named? anchor).getD (.enclosing anchor)
  | node => node

/-- The anchors that are followed while a merge is worked out. -/
def follow (busy : List String) : Node → List String
  | .enclosing anchor => anchor :: busy
  | _ => busy

/-- Whether an alias leads back into the merge that is worked out. -/
def leadsBack (busy : List String) : Node → Bool
  | .enclosing anchor => busy.contains anchor
  | _ => false

/-- The entries that a mapping has with those that it merges; a merge with itself adds nothing. -/
def mergedTo (d : Document) : Nat → List String → List (Node × Node) → Except Error (List (Node × Node))
  | 0, _, _ => .ok []
  | fuel + 1, busy, entries => do
    let mappingOf (busy : List String) (node : Node) : Except Error (List (Node × Node)) :=
      if leadsBack busy node then .ok []
      else match d.resolve node with
        | .mapping _ entries => mergedTo d fuel (follow busy node) entries
        | _ => .error .mergeForm
    let borrowedBy (value : Node) : Except Error (List (Node × Node)) :=
      if leadsBack busy value then .ok []
      else match d.resolve value with
        | .sequence _ items => do
          return (← items.mapM (mappingOf (follow busy value))).reverse.flatten
        | _ => mappingOf busy value
    let (merges, own) := entries.partition (·.1.kind == .merge)
    let borrowed ← merges.mapM fun (_, value) => borrowedBy value
    return borrowed.flatten ++ own.map fun (key, value) => (key.asKey, value)

/-- All entries of a mapping of the document. A merge enters a node of the document or follows an anchor
that it has not followed yet. -/
def merged (d : Document) (entries : List (Node × Node)) : Except Error (List (Node × Node)) :=
  d.mergedTo ((d.root.depth + 1) * (d.anchors.length + 1)) [] entries

end Document

end ApiManual.Yaml
