/-
# Clusters in documents

A cluster file is a mapping from keys to scalars or to sequences of scalars. Keys are
texts whatever they mean, so `1` and `~` are the keys `1` and `~`; of two equal keys
the later one counts. A cluster set is a mapping from names to such mappings.

A file that is empty or holds a null has no attributes.
-/

import ClusterSync.Cluster.Policy
import ClusterSync.Yaml.Error

namespace ClusterSync

open Yaml (Read Document Node Atom Fault)

/-- The scalar that an atom of a document is. -/
def Scalar.ofAtom : Atom → Read Scalar
  | .null => .ok .null
  | .bool b => .ok (.bool b)
  | .int i =>
    .ok (if i < 0x8000000000000000 then .integer (Int64.ofInt i)
      else .unsigned (UInt64.ofNat i.toNat))
  | .huge => .error .malformed
  | .float x => .ok (.float x)
  | .text s => .ok (.text s)

/-- A scalar in a document. -/
def Scalar.read (d : Document) (n : Node) : Read Scalar := do
  Scalar.ofAtom (← d.asAtom n)

/-- An attribute in a document. -/
def Attribute.read (d : Document) (n : Node) : Read Attribute :=
  match d.follow n with
  | .sequence tag items =>
    if tag.any Yaml.isLocalTag then .error .malformed
    else do return .many (← items.mapM (Scalar.read d))
  | n => do return .one (← Scalar.read d n)

/-- An entry of a mapping whose keys are texts. -/
def readEntry {α : Type} (d : Document) (read : Node → Read α) (e : Node × Node) :
    Read (String × α) := do
  let key ← d.asText e.1
  return (key, ← read e.2)

/-- The attributes of a cluster in a document. -/
def Attributes.read (d : Document) (n : Node) : Read Attributes := do
  let entries ← (← d.asMapping n).mapM (readEntry d (Attribute.read d))
  return .ofList entries

/-- A cluster set in a document. -/
def ClusterSet.read (d : Document) (n : Node) : Read ClusterSet := do
  let entries ← (← d.asMapping n).mapM (readEntry d (Attributes.read d))
  return .ofList entries

/-- The scalar that a text is a document of. -/
def Scalar.ofDocument (text : String) : Read Scalar :=
  Document.readWhole text fun d root =>
    match root with
    | some n => Scalar.read d n
    | none => .ok .null

/-- The attributes that a text is a document of. -/
def Attributes.ofDocument (text : String) : Read Attributes :=
  Document.readWhole text fun d root =>
    match root with
    | some n => Attributes.read d n
    | none => .ok .empty

/-- The cluster set that a text is a document of. -/
def ClusterSet.ofDocument (text : String) : Read ClusterSet :=
  Document.readWhole text fun d root =>
    match root with
    | some n => ClusterSet.read d n
    | none => .ok .empty

/-- The attributes in a cluster file. -/
def Attributes.ofFile (text : String) : Read Attributes :=
  if (Text.trim text).isEmpty then .ok .empty
  else
    Document.readWhole text fun d root =>
      match root with
      | some n => do return (← d.optional n (Attributes.read d)).getD .empty
      | none => .ok .empty

/-- The names of the merge policies. -/
def Policy.names : List String := [Policy.merge, .override, .nomerge].map (·.name)

/-- The policy of a name in a document. -/
def Policy.named (name : String) : Read Policy :=
  match Policy.ofName? name with
  | some p => .ok p
  | none => .error (.unknownVariant name Policy.names)

/-- A policy in a document: its name, or a tag of its name on nothing. -/
def Policy.read (d : Document) (n : Node) : Read Policy :=
  match d.follow n with
  | .scalar tag style text =>
    match Document.localTag? tag with
    | some name => do
      let p ← Policy.named name
      if style = .plain && (text.isEmpty || Yaml.isNullWord text) then return p
      else throw .malformed
    | none => Policy.named text
  | .sequence tag _ | .mapping tag _ =>
    match Document.localTag? tag with
    | some name => do
      let _ ← Policy.named name
      throw .malformed
    | none => .error .malformed
  | _ => .error .malformed

/-- The policy that a text is a document of. -/
def Policy.ofDocument (text : String) : Read Policy :=
  Document.readWhole text fun d root =>
    match root with
    | some n => Policy.read d n
    | none => .error .malformed

end ClusterSync
