/-
# Values of any kind

Where a document may hold anything, it is read as a value before it is known what is
looked for. Keys of a mapping are values themselves, each at most once. Two mappings are the
same value in whatever order their keys stand, and so are the two zeros with a point.
-/

import ClusterSync.Unicode.Category
import ClusterSync.Yaml.Atom
import ClusterSync.Yaml.Reader

namespace ClusterSync
namespace Yaml

/-- A value of a document. -/
inductive Value
  | null
  | bool (b : Bool)
  | int (i : Int)
  | float (x : Binary64)
  | text (s : String)
  | sequence (items : List Value)
  | mapping (entries : List (Value × Value))
  /-- A value under a tag of the document's own, without its exclamation mark. -/
  | tagged (tag : String) (value : Value)
deriving Inhabited

namespace Value

mutual

/-- Are two values the same? -/
def same : Value → Value → Bool
  | null, null => true
  | bool a, bool b => a == b
  | int i, int j => i == j
  | float x, float y => x == y || (x.isZero && y.isZero)
  | text s, text t => s == t
  | sequence items, sequence others => sameItems items others
  | mapping entries, mapping others => entries.length == others.length && allIn others entries
  | tagged tag v, tagged other w => tag == other && same v w
  | _, _ => false

/-- Are values the same as others, one by one? -/
def sameItems : List Value → List Value → Bool
  | [], [] => true
  | v :: rest, w :: others => same v w && sameItems rest others
  | _, _ => false

/-- Are all the entries among others? -/
def allIn (others : List (Value × Value)) : List (Value × Value) → Bool
  | [] => true
  | (k, v) :: rest => others.any (fun e => same k e.1 && same v e.2) && allIn others rest

end

instance : BEq Value := ⟨same⟩

/-- The value of an atom. -/
def ofAtom? : Atom → Option Value
  | .null => some null
  | .bool b => some (bool b)
  | .int i => some (int i)
  | .huge => none
  | .float x => some (float x)
  | .text s => some (text s)

/-- The value without the tags in front of it. -/
def untag : Value → Value
  | tagged _ v => v.untag
  | v => v

/-- A character of a text as it is shown in quotes. -/
def showChar (c : Char) : List Char :=
  match c with
  | '\x00' => ['\\', '0']
  | '\t' => ['\\', 't']
  | '\n' => ['\\', 'n']
  | '\r' => ['\\', 'r']
  | '"' => ['\\', '"']
  | '\\' => ['\\', '\\']
  | c =>
    if Unicode.isPrintable c then [c]
    else "\\u\x7b".toList ++ Nat.toDigits 16 c.toNat ++ ['\x7d']

/-- A text as it is shown in quotes. -/
def showText (s : String) : String :=
  "\"" ++ String.ofList (s.toList.flatMap showChar) ++ "\""

mutual

/-- A value as it is shown to a reader who has to find it in a document. -/
def shown : Value → String
  | null => "Null"
  | bool true => "Bool(true)"
  | bool false => "Bool(false)"
  | int i => s!"Number({i})"
  | float x => s!"Number({NumberLayout.document.render x})"
  | text s => s!"String({showText s})"
  | sequence items => "Sequence [" ++ shownItems items ++ "]"
  | mapping entries => "Mapping \x7b" ++ shownEntries entries ++ "\x7d"
  | tagged tag v => "TaggedValue \x7b tag: !" ++ tag ++ ", value: " ++ shown v ++ " \x7d"

/-- Values as they are shown, with commas between them. -/
def shownItems : List Value → String
  | [] => ""
  | [v] => shown v
  | v :: rest => shown v ++ ", " ++ shownItems rest

/-- Entries as they are shown, with commas between them. -/
def shownEntries : List (Value × Value) → String
  | [] => ""
  | [(k, v)] => shown k ++ ": " ++ shown v
  | (k, v) :: rest => shown k ++ ": " ++ shown v ++ ", " ++ shownEntries rest

end

/-- The value at a key that is a text. -/
def find? (key : String) : List (Value × Value) → Option Value
  | [] => none
  | (k, v) :: rest => if k == text key then some v else find? key rest

/-- The entries without the one at a key; the last entry takes its place. -/
def takeOut (key : String) (entries : List (Value × Value)) : List (Value × Value) :=
  match entries.findIdx? fun e => e.1 == text key with
  | none => entries
  | some i =>
    match entries.getLast? with
    | some last => if i + 1 = entries.length then entries.dropLast else (entries.set i last).dropLast
    | none => entries

end Value

/-- Reads nodes in turn; each reading leaves fewer aliases that may be followed. -/
def readAll {α β : Type} (read : α → Nat → Option (β × Nat)) :
    List α → Nat → Option (List β × Nat)
  | [], budget => some ([], budget)
  | a :: rest, budget => do
    let (b, budget) ← read a budget
    let (bs, budget) ← readAll read rest budget
    return (b :: bs, budget)

/-- Are the keys all different? -/
def distinctKeys : List (Value × Value) → Bool
  | [] => true
  | (k, _) :: rest => !rest.any (·.1 == k) && distinctKeys rest

namespace Document

/-- The tag of the document's own that a node carries, without its exclamation mark. -/
def localTag? (tag : Option String) : Option String :=
  (tag.filter isLocalTag).map fun t => String.ofList (t.toList.drop 1)

/-- A value under a tag of the document's own, if there is one. -/
def underTag (tag : Option String) (v : Value) : Value :=
  match localTag? tag with
  | some t => .tagged t v
  | none => v

/-- The node, or the one that it is an alias for if one more may be followed. -/
def followWithin (d : Document) (budget : Nat) : Node → Option (Node × Nat)
  | .alias number => if budget = 0 then none else some (d.target number, budget - 1)
  | node => some (node, budget)

/-- The value of a scalar. -/
def scalarValue? (tag : Option String) (style : Style) (text : String) : Option Value :=
  let atom := if (localTag? tag).isSome then Atom.ofScalar? none style text
    else Atom.ofScalar? tag style text
  (atom.bind Value.ofAtom?).map (underTag tag)

/-- Reads an entry of a mapping: its key, then its value. -/
def readPair (read : Node → Nat → Option (Value × Nat)) (e : Node × Node) (budget : Nat) :
    Option ((Value × Value) × Nat) := do
  let (k, budget) ← read e.1 budget
  let (v, budget) ← read e.2 budget
  return ((k, v), budget)

/-- Reads a node that is no alias as a value, and the parts of it by `inner`; there is nothing
to read them by where a document may not be nested any deeper. -/
def valueBy? (inner : Option (Node → Nat → Option (Value × Nat))) (node : Node) (budget : Nat) :
    Option (Value × Nat) :=
  match node with
  | .scalar tag style text => (scalarValue? tag style text).map fun v => (v, budget)
  | .sequence tag items => do
    let (vs, budget) ← readAll (← inner) items budget
    return (underTag tag (.sequence vs), budget)
  | .mapping tag entries => do
    let (es, budget) ← readAll (readPair (← inner)) entries budget
    if distinctKeys es then return (underTag tag (.mapping es), budget) else none
  | .alias _ | .broken => none

/-- Reads a node as a value, at most so deep, and with so many aliases that may be
followed. -/
def value? (d : Document) : Nat → Node → Nat → Option (Value × Nat)
  | 0, node, budget => do
    let (node, budget) ← d.followWithin budget node
    valueBy? none node budget
  | depth + 1, node, budget => do
    let (node, budget) ← d.followWithin budget node
    valueBy? (some (d.value? depth)) node budget

end Document
end Yaml
end ClusterSync
