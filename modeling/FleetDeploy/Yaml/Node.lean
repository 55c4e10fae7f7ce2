import FleetDeploy.Yaml.Scalar.Style

/-!
# Nodes

A document is a tree of scalars, sequences and mappings.  A node may carry an
anchor, by which an alias elsewhere in the document stands for it.  Anchors are
numbers here; `Node.anchored` lists the anchored nodes of a tree in the order in
which they begin, and of two nodes with one number the later one counts.
-/

namespace FleetDeploy.Yaml

/-- A part of a document. -/
inductive Node
  | alias (number : Nat)
  | scalar (anchor : Option Nat) (tag : Option (List UInt8)) (style : Style) (text : List Char)
  | sequence (anchor : Option Nat) (items : List Node)
  | mapping (anchor : Option Nat) (entries : List (Node × Node))
  deriving Repr

namespace Node

/-- What stands where nothing is written. -/
def empty : Node :=
  .scalar none none .plain []

/-- The anchor of a node. -/
def anchor? : Node → Option Nat
  | .alias _ => none
  | .scalar anchor _ _ _ => anchor
  | .sequence anchor _ => anchor
  | .mapping anchor _ => anchor

/-- A node with its number, if it is anchored. -/
def numbered (node : Node) : List (Nat × Node) :=
  node.anchor?.toList.map fun number => (number, node)

mutual

/-- The anchored nodes of a tree with their numbers, in the order in which they
begin. -/
def anchored : Node → List (Nat × Node)
  | .sequence anchor items => numbered (.sequence anchor items) ++ anchoredItems items
  | .mapping anchor entries => numbered (.mapping anchor entries) ++ anchoredEntries entries
  | node => numbered node

/-- The anchored nodes of the items of a sequence. -/
def anchoredItems : List Node → List (Nat × Node)
  | [] => []
  | item :: items => anchored item ++ anchoredItems items

/-- The anchored nodes of the entries of a mapping. -/
def anchoredEntries : List (Node × Node) → List (Nat × Node)
  | [] => []
  | (key, value) :: entries => anchored key ++ anchored value ++ anchoredEntries entries

end

end Node

/-- A tree and its anchored nodes. -/
structure Document where
  root : Node
  anchored : List (Nat × Node)

namespace Document

/-- The document of a tree. -/
def ofNode (root : Node) : Document :=
  ⟨root, root.anchored⟩

/-- The node that an alias stands for; every other node stands for itself. -/
def resolve? (document : Document) : Node → Option Node
  | .alias number => (document.anchored.reverse.find? (·.1 = number)).map (·.2)
  | node => some node

end Document

end FleetDeploy.Yaml
