/-
# Entries in documents

An entry is a mapping. It is read as one of values of any kind, since its type decides which
keys it may have, and faults count in this order:

1. a `policy` that is none, or a `name` that is no text;
2. in the order of the keys, a `type` that is unknown, or a tag on or in anything else;
3. a missing `type`;
4. in the order of the keys, a value of the wrong kind or a field that is given twice;
5. a missing field;
6. a key that the type does not have.

Taking out `policy` and `name` moves the last key to their places (`Value.takeOut`). Among
the keys of a type that has fields a whole number stands for the field of that number,
counted from zero; step 6 finds it all the same.
-/

import ClusterSync.Cluster.Reading
import ClusterSync.Config.Entry

namespace ClusterSync

open Yaml (Read Document Node Value Fault)

/-- Entries of a mapping that has been read as a value. -/
abbrev Pairs := List (Value × Value)

mutual

/-- Is there a tag on a value, or in it? -/
def Yaml.Value.isTagged : Value → Bool
  | .tagged _ _ => true
  | .sequence items => anyTagged items
  | .mapping entries => anyEntryTagged entries
  | _ => false

/-- Is there a tag on one of the values, or in it? -/
def Yaml.Value.anyTagged : List Value → Bool
  | [] => false
  | v :: rest => v.isTagged || anyTagged rest

/-- Is there a tag on a key or value of the entries, or in it? -/
def Yaml.Value.anyEntryTagged : List (Value × Value) → Bool
  | [] => false
  | (k, v) :: rest => k.isTagged || v.isTagged || anyEntryTagged rest

end

/-- The policy that a value names: a text, or a tag on nothing. -/
def Policy.ofValue : Value → Read Policy
  | .text s => Policy.named s
  | .tagged tag .null => Policy.named tag
  | _ => .error .malformed

/-- The text that a value is, whatever its tags. -/
def Yaml.Value.asText? (v : Value) : Option String :=
  match v.untag with
  | .text s => some s
  | _ => none

namespace FieldKind

/-- May a field of this kind hold a value? -/
def admits : FieldKind → Value → Bool
  | text, .text _ => true
  | optionalText, .null => true
  | optionalText, .text _ => true
  | optionalWord, .null => true
  | optionalWord, .int i => 0 ≤ i && i < 0x10000000000000000
  | _, _ => false

end FieldKind

namespace EntryType

/-- The names of all types. -/
def names : List String := all.map (·.name)

/-- The type that a value names. -/
def ofValue (v : Value) : Read EntryType :=
  match v.asText? with
  | some s =>
    match ofName? s with
    | some t => .ok t
    | none => .error (.unknownVariant s names)
  | none => .error .malformed

/-- The field that a key stands for, if a key of this sort can stand for one. -/
def field (t : EntryType) : Value → Read (Option (String × FieldKind))
  | .text s => .ok (t.fields.find? (·.1 == s))
  | .int i => if 0 ≤ i then .ok t.fields[i.toNat]? else .error .malformed
  | _ => .error .malformed

/-- The fields that entries give, in addition to those `found` before them. -/
def collect (t : EntryType) (found : List (String × Value)) :
    Pairs → Read (List (String × Value))
  | [] => .ok found
  | (key, value) :: rest => do
    match ← t.field key with
    | none => collect t found rest
    | some (name, kind) =>
      if found.any (·.1 == name) then throw (.duplicateField name)
      else if kind.admits value then collect t (found ++ [(name, value)]) rest
      else throw .malformed

end EntryType

/-- A text among fields. -/
def textField? (fields : List (String × Value)) (name : String) : Option String :=
  (fields.lookup name).bind (·.asText?)

/-- A text among fields that must be there. -/
def textField (fields : List (String × Value)) (name : String) : Read String :=
  match textField? fields name with
  | some s => .ok s
  | none => .error (.missingField name)

/-- A whole number among fields. -/
def wordField? (fields : List (String × Value)) (name : String) : Option UInt64 :=
  match fields.lookup name with
  | some (.int i) => some (UInt64.ofNat i.toNat)
  | _ => none

/-- The origin that fields tell, for an entry of a type. -/
def Origin.ofFields (fields : List (String × Value)) : EntryType → Read Origin
  | .directory => do return .directory (← textField fields "dir")
  | .git => do
    return .git (← textField fields "repo") ((textField? fields "dir").getD "")
      (textField? fields "branch")
  | .svn => do return .svn (← textField fields "repo") ((textField? fields "dir").getD "")
  | .listing => do
    return .listing (← textField fields "url") (← textField fields "filter")
      (wordField? fields "timeout_secs")
  | .stamp => .ok .stamp
  | .membership => .ok .membership

namespace SourceEntry

/-- The key that names the type. -/
def typeKey : String := "type"

/-- Checks an entry of the mapping by itself. -/
def checkPair (e : Value × Value) : Read Unit :=
  if e.1 == .text typeKey then (EntryType.ofValue e.2).map fun _ => ()
  else if e.1.isTagged || e.2.isTagged then .error .malformed
  else .ok ()

/-- The origin that entries of a mapping tell. -/
def originOf (entries : Pairs) : Read Origin := do
  entries.forM checkPair
  match Value.find? typeKey entries with
  | none => throw (.missingField typeKey)
  | some v =>
    let t ← EntryType.ofValue v
    if t.fields.isEmpty then Origin.ofFields [] t
    else Origin.ofFields (← t.collect [] (entries.filter fun e => !(e.1 == .text typeKey))) t

/-- The first key that entries of a type do not have. -/
def unknownKey? (t : EntryType) (entries : Pairs) : Option Value :=
  (entries.map (·.1)).find? fun key =>
    match key.asText? with
    | some s => !(s == typeKey || t.fieldNames.contains s)
    | none => true

/-- The entry that a mapping tells. -/
def ofPairs (entries : Pairs) : Read SourceEntry := do
  let policy ←
    match Value.find? "policy" entries with
    | some v => (Policy.ofValue v).mapError fun _ => .invalidPolicy
    | none => pure .merge
  let entries := Value.takeOut "policy" entries
  let name ←
    match Value.find? "name" entries with
    | some v =>
      match v.asText? with
      | some s => pure (some s)
      | none => throw .invalidName
    | none => pure none
  let entries := Value.takeOut "name" entries
  let origin ← originOf entries
  match unknownKey? origin.type entries with
  | some key => throw (.unknownKey key origin.type.name origin.type.fieldNames)
  | none => return { origin, policy, name }

/-- Reads a node as an entry, at most so deep, and with so many aliases that may be
followed; tells how many are left. -/
def read (d : Document) (depth : Nat) (n : Node) (budget : Nat) : Read (SourceEntry × Nat) :=
  match d.follow n with
  | .mapping _ _ =>
    match d.value? depth n budget with
    | some (v, budget) =>
      match v.untag with
      | .mapping entries => do return (← ofPairs entries, budget)
      | _ => .error .malformed
    | none => .error .malformed
  | .scalar _ .plain "" => do return (← ofPairs [], budget)
  | _ => .error .malformed

/-- How deep a document may be nested. -/
def maxDepth : Nat := 128

/-- The entry that a text is a document of. -/
def ofDocument (text : String) : Read SourceEntry :=
  Document.readWhole text fun d root =>
    match root with
    | some n => do return (← read d maxDepth n d.budget).1
    | none => ofPairs []

end SourceEntry
end ClusterSync
