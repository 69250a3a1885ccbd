import RouteScaffold.Yaml.Lexer
import RouteScaffold.Yaml.Node
import RouteScaffold.Yaml.Resolution

/-!
# Reading YAML

A document becomes a JSON tree: aliases are replaced by what they name, mappings become objects whose
keys are the texts of the key scalars.  Two limits keep the tree in bounds: lists and mappings nest
at most 128 deep, and at most a hundred aliases are followed for each event of the document, an
event being a scalar, an alias, or the start or the end of a list or mapping.
-/

namespace RouteScaffold.Yaml

namespace Node

mutual

/-- The count of events of a node. -/
def events : Node → Nat
  | scalar .. => 1
  | aliasOf _ => 1
  | list _ _ items => itemEvents items + 2
  | mapping _ _ entries => entryEvents entries + 2

/-- The count of events of list items. -/
def itemEvents : List Node → Nat
  | [] => 0
  | item :: rest => events item + itemEvents rest

/-- The count of events of mapping entries. -/
def entryEvents : List (Node × Node) → Nat
  | [] => 0
  | (key, value) :: rest => events key + events value + entryEvents rest

end

/-- The entry of the table of anchored nodes for one node. -/
def anchorEntry (anchor : Option Nat) (node : Node) : List (Nat × Node) :=
  match anchor with
  | some number => [(number, node)]
  | none => []

mutual

/-- The anchored nodes within a node with their numbers, in the order in which they begin. -/
def anchored : Node → List (Nat × Node)
  | scalar anchor tag text plain => anchorEntry anchor (scalar anchor tag text plain)
  | aliasOf _ => []
  | list anchor tag items => anchorEntry anchor (list anchor tag items) ++ itemAnchored items
  | mapping anchor tag entries =>
    anchorEntry anchor (mapping anchor tag entries) ++ entryAnchored entries

/-- The anchored nodes within list items. -/
def itemAnchored : List Node → List (Nat × Node)
  | [] => []
  | item :: rest => anchored item ++ itemAnchored rest

/-- The anchored nodes within mapping entries. -/
def entryAnchored : List (Node × Node) → List (Nat × Node)
  | [] => []
  | (key, value) :: rest => anchored key ++ anchored value ++ entryAnchored rest

end

end Node

/-- Lists and mappings nest at most this deep. -/
def depthLimit : Nat := 128

/-- What the expansion of a document refers to. -/
structure Scope where
  /-- The anchored nodes, the last one to begin first. -/
  anchored : List (Nat × Node)
  /-- The count of aliases that may be followed. -/
  limit : Nat

/-- The scope of a document. -/
def Scope.of (root : Node) : Scope := ⟨root.anchored.reverse, 100 * root.events⟩

namespace Scope

/-- A step of the expansion; the state counts the aliases followed. -/
abbrev Step := StateT Nat Option

/-- The step that gives nothing. -/
def reject {α : Type} : Step α := fun _ => none

/-- Follows an alias. -/
def follow (scope : Scope) (anchor : Nat) : Step Node := fun followed =>
  if followed < scope.limit then (scope.anchored.lookup anchor).map fun node => (node, followed + 1)
  else none

/-- The node an alias names, or the node itself when it is none. -/
def target (scope : Scope) : Node → Step Node
  | .aliasOf anchor => scope.follow anchor
  | node => return node

/-- The key a node is as part of a mapping. -/
def keyText (scope : Scope) (node : Node) : Step String := do
  match ← scope.target node with
  | .scalar _ _ text _ => return String.ofList text
  | _ => reject

mutual

/-- The tree of a node below at most `depth` further lists and mappings. -/
def tree (scope : Scope) (depth : Nat) (node : Node) : Step Json := do
  match ← scope.target node with
  | .aliasOf _ => reject
  | .scalar _ tag text plain => fun followed => (scalarTree tag text plain).map (·, followed)
  | .list _ tag items =>
    if tag.any Tag.isLocal then reject
    else
      match depth with
      | 0 => reject
      | depth + 1 => return .arr (← scope.itemTrees depth items)
  | .mapping _ tag entries =>
    if tag.any Tag.isLocal then reject
    else
      match depth with
      | 0 => reject
      | depth + 1 => return .obj (← scope.entryTrees depth entries [])
termination_by (depth, 0)

/-- The trees of list items. -/
def itemTrees (scope : Scope) (depth : Nat) (items : List Node) : Step (List Json) := do
  match items with
  | [] => return []
  | item :: rest => return (← scope.tree depth item) :: (← scope.itemTrees depth rest)
termination_by (depth, items.length + 1)

/-- The members of an object with mapping entries put into it. -/
def entryTrees (scope : Scope) (depth : Nat) (entries : List (Node × Node))
    (members : List (String × Json)) : Step (List (String × Json)) := do
  match entries with
  | [] => return members
  | (key, value) :: rest =>
    let key ← scope.keyText key
    let value ← scope.tree depth value
    scope.entryTrees depth rest (putMember key value members)
termination_by (depth, entries.length + 1)

end

end Scope

/-- Reads a text that holds at most one YAML document; a text without one is null. -/
def parse (text : String) : Option Json := do
  match ← Node.ofTokens? (← tokens? text) with
  | none => some .null
  | some root => ((Scope.of root).tree depthLimit root).run' 0

end RouteScaffold.Yaml
