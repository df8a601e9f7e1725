/-
# Clusters as documents

A cluster file is written with its keys in byte order. The body that is published is the
cluster in the form in which the range server reads it.
-/

import ClusterSync.Cluster.Normal
import ClusterSync.Cluster.Policy
import ClusterSync.Yaml.Tree

namespace ClusterSync

open Yaml (Tree)

/-- A scalar in a document. -/
def Scalar.tree : Scalar → Tree
  | .null => .null
  | .bool b => .bool b
  | .integer i => .int i.toInt
  | .unsigned u => .int u.toNat
  | .float x => .float x
  | .text s => .text s

/-- An attribute in a document. -/
def Attribute.tree : Attribute → Tree
  | .one s => s.tree
  | .many items => .sequence (items.map Scalar.tree)

/-- The attributes of a cluster in a document. -/
def Attributes.tree (data : Attributes) : Tree :=
  .mapping (data.entries.map fun e => (e.1, e.2.tree))

/-- A cluster set in a document. -/
def ClusterSet.tree (set : ClusterSet) : Tree :=
  .mapping (set.entries.map fun e => (e.1, Attributes.tree e.2))

/-- A policy in a document. -/
def Policy.tree (p : Policy) : Tree := .text p.name

/-- The body that is published for a cluster. -/
def Attributes.body (data : Attributes) : String :=
  (Attributes.tree (Normal.published data)).document

end ClusterSync
