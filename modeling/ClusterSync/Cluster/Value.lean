/-
# Clusters and what they are described by

A cluster has a name and attributes. An attribute is one scalar or an ordered list of
scalars, under a key; keys are told apart by case. Every published cluster has the key
`CLUSTER`.

Whole numbers are signed words as long as they fit, and unsigned words above that.
-/

import ClusterSync.Table
import ClusterSync.Decimal.Shortest

namespace ClusterSync

/-- One value. -/
inductive Scalar
  | null
  | bool (b : Bool)
  | integer (i : Int64)
  /-- A whole number, in practice one above the signed words. -/
  | unsigned (u : UInt64)
  | float (x : Binary64)
  | text (s : String)
deriving DecidableEq

namespace Scalar

/-- The text, if the scalar is one. -/
def text? : Scalar → Option String
  | text s => some s
  | _ => none

/-- The scalar for an unsigned word: signed if it fits. -/
def ofUnsigned (u : UInt64) : Scalar :=
  if u.toNat < 0x8000000000000000 then integer (Int64.ofNat u.toNat) else unsigned u

/-- The scalar as it is shown to a reader. -/
def display : Scalar → String
  | null => ""
  | bool true => "true"
  | bool false => "false"
  | integer i => toString i.toInt
  | unsigned u => toString u.toNat
  | float x => NumberLayout.display.render x
  | text s => s

end Scalar

/-- What stands under one key of a cluster. -/
inductive Attribute
  | one (s : Scalar)
  | many (items : List Scalar)
deriving DecidableEq

/-- The attribute that is an empty text. -/
def Attribute.blank : Attribute := one (.text "")

/-- The attributes of a cluster. -/
abbrev Attributes := Table String Attribute

/-- Clusters by name. -/
abbrev ClusterSet := Table String Attributes

/-- The key that every published cluster has. -/
def clusterKey : String := "CLUSTER"

end ClusterSync
