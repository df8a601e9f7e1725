/-
# What may be wrong with a document

Most faults are only that a document cannot be read. Those that say which word is
wrong name it.
-/

import ClusterSync.Yaml.Value

namespace ClusterSync
namespace Yaml

/-- Why a document is refused. -/
inductive Fault
  /-- It is no document, or not of the kind that is looked for. -/
  | malformed
  | unknownField (name : String) (expected : List String)
  | missingField (name : String)
  | duplicateField (name : String)
  | unknownVariant (name : String) (expected : List String)
  /-- A merge policy that is none, or not a text. -/
  | invalidPolicy
  /-- A name that is not a text. -/
  | invalidName
  /-- A key that a source of this type does not know. -/
  | unknownKey (key : Value) (type : String) (expected : List String)

namespace Fault

/-- Words in backquotes, the choice between them spelled out. -/
def choice (words : List String) : String :=
  let quoted := words.map fun w => "`" ++ w ++ "`"
  match quoted with
  | [] => "there are no fields"
  | [a] => s!"expected {a}"
  | [a, b] => s!"expected {a} or {b}"
  | _ => "expected one of " ++ Text.join ", " quoted

/-- The wording of a fault, as far as it names a word. -/
def message? : Fault → Option String
  | malformed => none
  | unknownField name expected => some ("unknown field `" ++ name ++ "`, " ++ choice expected)
  | missingField name => some ("missing field `" ++ name ++ "`")
  | duplicateField name => some ("duplicate field `" ++ name ++ "`")
  | unknownVariant name expected =>
    some ("unknown variant `" ++ name ++ "`, " ++ choice expected)
  | invalidPolicy => some "invalid policy"
  | invalidName => some "invalid name"
  | unknownKey key type expected =>
    some (s!"unknown field {key.shown} for {type} source, expected one of: type, policy, name, "
      ++ Text.join ", " expected)

end Fault

/-- A result of reading a document. -/
abbrev Read (α : Type) := Except Fault α

namespace Document

/-- Reads the whole text of a document as one thing. What is wrong with the part that is
there counts before what comes after it. -/
def readWhole {α : Type} (text : String) (read : Document → Option Node → Read α) : Read α :=
  let d := Document.ofText text
  match read d d.root with
  | .error e => .error e
  | .ok a => if d.whole then .ok a else .error .malformed

/-- A scalar as a text, whatever it means. -/
def asText (d : Document) (n : Node) : Read String :=
  match d.follow n with
  | .scalar _ _ text => .ok text
  | _ => .error .malformed

/-- The atom that a scalar means. -/
def asAtom (d : Document) (n : Node) : Read Atom :=
  match d.follow n with
  | .scalar tag style text =>
    match Atom.ofScalar? tag style text with
    | some a => .ok a
    | none => .error .malformed
  | _ => .error .malformed

/-- The entries of a mapping. Nothing written stands for none, `null` does not. -/
def asMapping (d : Document) (n : Node) : Read (List (Node × Node)) :=
  match d.follow n with
  | .mapping _ entries => .ok entries
  | .scalar _ .plain "" => .ok []
  | _ => .error .malformed

/-- The items of a sequence. Nothing written stands for none, `null` does not. -/
def asSequence (d : Document) (n : Node) : Read (List Node) :=
  match d.follow n with
  | .sequence _ items => .ok items
  | .scalar _ .plain "" => .ok []
  | _ => .error .malformed

/-- Does a node stand for nothing: is it not written, or a plain null? -/
def isNull (d : Document) (n : Node) : Read Bool :=
  match d.follow n with
  | .scalar none .plain text => .ok (text.isEmpty || isNullWord text)
  | .scalar (some tag) .plain text =>
    if tag = coreTag "null" then if isNullWord text then .ok true else .error .malformed
    else .ok false
  | .broken => .error .malformed
  | _ => .ok false

/-- A node that may stand for nothing. -/
def optional {α : Type} (d : Document) (n : Node) (read : Node → Read α) : Read (Option α) := do
  if ← d.isNull n then return none else return some (← read n)

/-- Is a node plain, or a literal with the tag of its kind? Only such are read as truth
values and numbers. -/
def isBare (kind : String) (tag : Option String) (style : Style) : Bool :=
  style == .plain || (style == .literal && tag == some (coreTag kind))

/-- A truth value. -/
def asBool (d : Document) (n : Node) : Read Bool :=
  match d.follow n with
  | .scalar tag style text =>
    match isBare "bool" tag style, boolWord? text with
    | true, some b => .ok b
    | _, _ => .error .malformed
  | _ => .error .malformed

/-- A whole number from zero to the greatest of 64 bits. -/
def asUnsigned (d : Document) (n : Node) : Read Nat :=
  match d.follow n with
  | .scalar tag style text =>
    match isBare "int" tag style, readInt? text.toList with
    | true, some i =>
      if text.startsWith "-" || 0x10000000000000000 ≤ i then .error .malformed else .ok i.toNat
    | _, _ => .error .malformed
  | _ => .error .malformed

end Document
end Yaml
end ClusterSync
