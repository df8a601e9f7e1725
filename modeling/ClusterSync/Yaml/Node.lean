/-
# The tree of a document

A node is a scalar, a sequence or a mapping, or an alias for a node that was given an
anchor. Keys of mappings are nodes, in the order of the text and with repetitions.

A text may stop being a document half way. What stands before that place is still a tree:
where it breaks off, the tree has a `broken` node. So a reader that looks at the
tree from the front can tell what is wrong with the part that is there.

Anchors are numbered. An anchor takes as its number how many different names have been
anchored before it, and an alias stands for the node that took its number last.
-/

import ClusterSync.Yaml.Token

namespace ClusterSync
namespace Yaml

/-- A node of a document. -/
inductive Node
  | scalar (tag : Option String) (style : Style) (text : String)
  | sequence (tag : Option String) (items : List Node)
  | mapping (tag : Option String) (entries : List (Node × Node))
  | alias (number : Nat)
  /-- The place where the text breaks off. -/
  | broken

/-- The node that stands where nothing is written. -/
def Node.missing : Node := .scalar none .plain ""

/-- A node with an anchor. -/
structure Anchored where
  number : Nat
  /-- How many nodes with anchors began before it. -/
  order : Nat
  node : Node

/-- A document. -/
structure Document where
  /-- The tree; nothing if the text has none. -/
  root : Option Node
  anchored : List Anchored := []
  /-- Is the text one document, read to its end? -/
  whole : Bool
  /-- How many aliases may be followed in reading it. -/
  budget : Nat := 0

namespace Document

/-- Among nodes of one number, the one that began last. -/
def latest (best : Option Anchored) : List Anchored → Option Anchored
  | [] => best
  | a :: rest =>
    latest (match best with
      | some b => if b.order < a.order then some a else some b
      | none => some a) rest

/-- The node that an alias of this number stands for. -/
def target (d : Document) (number : Nat) : Node :=
  match latest none (d.anchored.filter (·.number == number)) with
  | some a => a.node
  | none => .broken

/-- The node, or the one that it is an alias for. -/
def follow (d : Document) : Node → Node
  | .alias number => d.target number
  | node => node

end Document
end Yaml
end ClusterSync
