import DiagnosticRelay.Yaml.Node

/-!
# Documents of YAML

An alias stands for the node with the anchor of its name that comes before it.
Anchors are numbered by how many names are known when they are set, and an alias
stands for the last node with its number.

## Main definitions

* `Yaml.Anchors`: the anchors set so far.
* `Yaml.Tree`: a node whose aliases are numbers.
* `Yaml.Document.ofText?`: the document of a text.
-/

namespace DiagnosticRelay.Yaml

/-- A node whose aliases are the numbers of anchors. -/
inductive Tree where
  | alias (number : Nat)
  | scalar (plain : Bool) (text : String)
  | sequence (items : List Tree)
  | mapping (entries : List (Tree × Tree))

/-- The anchors set so far: the numbers of the names, and the nodes of the
numbers, last first. -/
structure Anchors where
  numbers : List (List Char × Nat) := []
  nodes : List (Nat × Tree) := []

namespace Anchors

/-- The number of a name. -/
def number? (a : Anchors) (name : List Char) : Option Nat :=
  (a.numbers.find? (·.1 == name)).map (·.2)

/-- The anchors after a name was set; without a name they stay. -/
def name (a : Anchors) (name : Option (List Char)) : Anchors :=
  match name with
  | none => a
  | some name =>
    { a with numbers := (name, a.numbers.length) :: a.numbers.filter (·.1 != name) }

/-- The anchors with a node for a number; it counts as set before the anchors
inside it, behind which `before` nodes were set. -/
def put (a : Anchors) (number : Option Nat) (before : Nat) (node : Tree) : Anchors :=
  match number with
  | none => a
  | some n => { a with nodes := a.nodes.insertIdx (a.nodes.length - before) (n, node) }

/-- The node of a number. -/
def node? (a : Anchors) (number : Nat) : Option Tree :=
  (a.nodes.find? (·.1 == number)).map (·.2)

end Anchors

mutual

/-- A node with its aliases numbered. An alias of an unknown name has no reading. -/
def Node.resolve? (a : Anchors) : Node → Option (Tree × Anchors)
  | .alias name => (a.number? name).map fun n => (.alias n, a)
  | .scalar anchor plain text =>
    let number := anchor.map fun _ => a.numbers.length
    let tree := Tree.scalar plain (String.ofList text)
    some (tree, (a.name anchor).put number a.nodes.length tree)
  | .sequence anchor items => do
    let number := anchor.map fun _ => a.numbers.length
    let (items, inner) ← resolveAll? (a.name anchor) items
    return (.sequence items, inner.put number a.nodes.length (.sequence items))
  | .mapping anchor entries => do
    let number := anchor.map fun _ => a.numbers.length
    let (entries, inner) ← resolveEntries? (a.name anchor) entries
    return (.mapping entries, inner.put number a.nodes.length (.mapping entries))

/-- Nodes with their aliases numbered. -/
def resolveAll? (a : Anchors) : List Node → Option (List Tree × Anchors)
  | [] => some ([], a)
  | node :: nodes => do
    let (tree, a) ← node.resolve? a
    let (trees, a) ← resolveAll? a nodes
    return (tree :: trees, a)

/-- Entries with their aliases numbered. -/
def resolveEntries? (a : Anchors) : List (Node × Node) → Option (List (Tree × Tree) × Anchors)
  | [] => some ([], a)
  | (key, value) :: entries => do
    let (key, a) ← key.resolve? a
    let (value, a) ← value.resolve? a
    let (entries, a) ← resolveEntries? a entries
    return ((key, value) :: entries, a)

end

/-- A document and its anchors. -/
structure Document where
  root : Tree
  anchors : Anchors

namespace Document

/-- What an alias stands for; any other node stands for itself. -/
def follow (d : Document) : Tree → Option Tree
  | .alias n => d.anchors.node? n
  | tree => some tree

/-- The document of a text: at most one. A text without any is an empty scalar. -/
def ofText? (text : String) : Option Document := do
  match ← Stream.ofTokens? (← Token.ofText? text.toList) with
  | .empty => return ⟨.scalar true "", {}⟩
  | .document root =>
    let (root, anchors) ← root.resolve? {}
    return ⟨root, anchors⟩

end Document

end DiagnosticRelay.Yaml
