/-
# Sets in brackets

Between brackets stand characters, ranges, escapes, named classes such as `[:alpha:]` and
further sets in brackets; together they are the union. `&&`, `--` and `~~` take the
intersection, the difference and the symmetric difference of what stands on their left,
from the left on, and the union on their right. A set may be complemented by `^` at its
beginning.

A closing bracket at the beginning of a set is a member, and so are dashes there.
-/

import ClusterSync.Pattern.Escape

namespace ClusterSync
namespace Pattern

/-- How two sets are put together. -/
inductive SetOp
  | inter
  | diff
  | symmDiff

/-- A set together with how deep the brackets in it are nested. -/
structure Nested where
  set : CharSet
  depth : Nat := 0

/-- A set whose closing bracket has not been read. -/
structure OpenSet where
  negated : Bool
  /-- What stands left of the last operator, and the operator. -/
  left : Option (Nested × SetOp) := none
  /-- The members of the open union, last first. -/
  items : List Nested := []

namespace OpenSet

/-- The set with another member. -/
def add (o : OpenSet) (n : Nested) : OpenSet := { o with items := n :: o.items }

/-- The open union. -/
def union (o : OpenSet) : Nested :=
  match o.items with
  | [] => ⟨.empty, 0⟩
  | [n] => n
  | items => ⟨items.foldr (fun n s => s.union n.set) .empty,
      items.foldl (fun d n => max d n.depth) 0 + 1⟩

/-- What the operator makes of both sides; case is ignored on each of them. -/
def value (f : Flags) (o : OpenSet) : Nested :=
  let right := o.union
  match o.left with
  | none => right
  | some (left, op) =>
    let a := f.folded left.set
    let b := f.folded right.set
    let set := match op with
      | .inter => a.inter b
      | .diff => a.diff b
      | .symmDiff => a.symmDiff b
    ⟨set, max left.depth right.depth + 1⟩

/-- The set up to an operator. -/
def split (f : Flags) (o : OpenSet) (op : SetOp) : OpenSet :=
  { o with left := some (o.value f, op), items := [] }

/-- The set at its closing bracket. -/
def close (f : Flags) (o : OpenSet) : Nested :=
  let n := o.value f
  let s := f.folded n.set
  ⟨if o.negated then s.compl else s, n.depth + 1⟩

end OpenSet

/-- Reads dashes at the beginning of a set. -/
def readDashes (f : Flags) (o : OpenSet) : Nat → List Char → OpenSet × List Char
  | n + 1, '-' :: rest => readDashes f (o.add ⟨.single '-', 0⟩) n (f.skip false rest)
  | _, rest => (o, rest)

/-- Reads the beginning of a set, behind its opening bracket. -/
def openSet (f : Flags) (rest : List Char) : OpenSet × List Char :=
  let (negated, rest) : Bool × List Char :=
    match f.skip false rest with
    | '^' :: rest => (true, f.skip false rest)
    | rest => (false, rest)
  let (o, rest) := readDashes f { negated } rest.length rest
  match o.items, rest with
  | [], ']' :: rest => (o.add ⟨.single ']', 0⟩, f.skip false rest)
  | _, rest => (o, rest)

/-- Reads a named class, behind its opening bracket. -/
def namedClass? (f : Flags) : List Char → Option (CharSet × List Char)
  | ':' :: rest =>
    let (negated, rest) : Bool × List Char :=
      match rest with
      | '^' :: rest => (true, rest)
      | rest => (false, rest)
    match rest.dropWhile (· != ':') with
    | ':' :: ']' :: after => do
      let s ← CharSet.asciiClass? (String.ofList (rest.takeWhile (· != ':')))
      let s := f.folded s
      return (if negated then s.compl else s, after)
    | _ => none
  | _ => none

/-- Reads one member of a set: an escape, or a character for itself. -/
def readMember? (f : Flags) : List Char → Option (Escape × List Char)
  | '\\' :: rest => readEscape? f rest
  | c :: rest => if !f.unicode && 0x80 ≤ c.toNat then none else some (.char c, rest)
  | [] => none

/-- Reads a member, or a range between two characters. -/
def readRange? (f : Flags) (rest : List Char) : Option (CharSet × List Char) := do
  let (first, rest) ← readMember? f rest
  let rest := f.skip false rest
  let alone (rest : List Char) : Option (CharSet × List Char) :=
    match first with
    | .char c => some (.single c, rest)
    | .set s => some (s, rest)
    | .look _ => none
  match rest with
  | [] => none
  | '-' :: after =>
    match f.skip false after with
    | ']' :: _ => alone rest
    | '-' :: _ => alone rest
    | next =>
      match first, ← readMember? f next with
      | .char lo, (.char hi, rest) => if lo ≤ hi then some (.span lo hi, rest) else none
      | _, _ => none
  | rest => alone rest

/-- Reads sets in brackets up to the bracket that closes the last of them. The set read
innermost comes first. -/
def readSets? (f : Flags) : Nat → OpenSet → List OpenSet → List Char → Option (Nested × List Char)
  | 0, _, _, _ => none
  | n + 1, o, outer, rest =>
    match f.skip false rest with
    | [] => none
    | '[' :: rest =>
      match namedClass? f rest with
      | some (s, rest) => readSets? f n (o.add ⟨s, 0⟩) outer rest
      | none =>
        let (inner, rest) := openSet f rest
        readSets? f n inner (o :: outer) rest
    | ']' :: rest =>
      match outer with
      | [] => some (o.close f, rest)
      | parent :: outer => readSets? f n (parent.add (o.close f)) outer rest
    | '&' :: '&' :: rest => readSets? f n (o.split f .inter) outer rest
    | '-' :: '-' :: rest => readSets? f n (o.split f .diff) outer rest
    | '~' :: '~' :: rest => readSets? f n (o.split f .symmDiff) outer rest
    | rest => do
      let (s, rest) ← readRange? f rest
      readSets? f n (o.add ⟨s, 0⟩) outer rest

/-- Reads a set in brackets, behind its opening bracket. Without Unicode it may have ASCII
members alone. -/
def readBrackets? (f : Flags) (rest : List Char) : Option (Nested × List Char) := do
  let (o, rest) := openSet f rest
  let (n, rest) ← readSets? f (rest.length + 1) o [] rest
  if f.unicode then return (n, rest)
  else if n.set.hasHigh then none
  else return ({ n with set := n.set.ascii }, rest)

end Pattern
end ClusterSync
