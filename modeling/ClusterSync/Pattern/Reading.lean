/-
# Reading patterns

A pattern is a choice, with bars between its branches; a branch is a row of pieces:

| piece | matches |
| --- | --- |
| `.` `[…]` `\d` `\pL` … | a character of a set |
| `^` `$` `\b` … | what stands beside a place |
| `(…)` `(?:…)` `(?P<name>…)` | a group |
| `(?i)` `(?i-s:…)` | flags for the rest of the group, or for a group |
| `p?` `p*` `p+` `p{2}` `p{2,}` `p{2,5}` | a repetition; a question mark behind it asks for a short one |
| any other character | itself |

Groups may not look ahead or behind, nothing refers back to a group, and no two groups
have one name. What is nested more than 250 deep is refused, and so is a pattern
that takes too much room.
-/

import ClusterSync.Pattern.Brackets

namespace ClusterSync
namespace Pattern

/-- A pattern read so far, with how deep it is nested. -/
structure Piece where
  pattern : Pattern
  depth : Nat := 0
  /-- May a repetition follow? Not behind flags. -/
  repeatable : Bool := true

/-- The pieces of a branch, last first, in one. -/
def rowOf : List Piece → Piece
  | [] => ⟨.empty, 0, true⟩
  | [p] => p
  | p :: rest =>
    ⟨rest.foldl (fun q r => .seq r.pattern q) p.pattern,
      rest.foldl (fun d r => max d r.depth) p.depth + 1, true⟩

/-- The branches of a choice, last first, in one. -/
def choiceOf : List Piece → Piece
  | [] => ⟨.empty, 0, true⟩
  | [p] => p
  | p :: rest =>
    ⟨rest.foldl (fun q r => .alt r.pattern q) p.pattern,
      rest.foldl (fun d r => max d r.depth) p.depth + 1, true⟩

/-- A group that has not been closed. -/
structure Level where
  /-- The flags that hold behind it. -/
  outer : Flags
  /-- The branches that have been read, last first. -/
  branches : List Piece := []
  /-- The pieces of the open branch, last first. -/
  items : List Piece := []

/-- Reading a pattern. -/
structure Reader where
  flags : Flags := {}
  /-- The names that groups have got. -/
  names : List String := []
  level : Level := { outer := {} }
  /-- The groups around the open one, innermost first. -/
  around : List Level := []

namespace Reader

/-- One more piece of the open branch. -/
def push (r : Reader) (p : Piece) : Reader :=
  { r with level := { r.level with items := p :: r.level.items } }

/-- One more set of characters. -/
def pushSet (r : Reader) (s : CharSet) : Reader := r.push ⟨.set s, 0, true⟩

/-- One more character. -/
def pushChar (r : Reader) (c : Char) : Reader := r.pushSet (r.flags.folded (.single c))

/-- One more look. -/
def pushLook (r : Reader) (l : Look) : Reader := r.push ⟨.look l, 0, true⟩

/-- The end of a branch. -/
def branch (r : Reader) : Reader :=
  { r with
    level := { r.level with branches := rowOf r.level.items :: r.level.branches, items := [] } }

/-- The beginning of a group in which these flags hold. -/
def openGroup (r : Reader) (inner : Flags) : Reader :=
  { r with flags := inner, level := { outer := r.flags }, around := r.level :: r.around }

/-- What the open group holds. -/
def choice (r : Reader) : Piece := choiceOf r.branch.level.branches

/-- The end of a group. -/
def closeGroup? (r : Reader) : Option Reader :=
  match r.around with
  | [] => none
  | level :: around =>
    let p := r.choice
    some ({ r with flags := r.level.outer, level, around }.push ⟨p.pattern, p.depth + 1, true⟩)

/-- The last piece so many times. -/
def repeat? (r : Reader) (least : Nat) (most : Option Nat) : Option Reader :=
  match r.level.items with
  | p :: rest =>
    if p.repeatable && most.all (least ≤ ·) then
      some { r with
        level := { r.level with items := ⟨.times p.pattern least most, p.depth + 1, true⟩ :: rest } }
    else none
  | [] => none

end Reader

/-- Without the question mark that asks for a short repetition. -/
def skipQuestion : List Char → List Char
  | '?' :: rest => rest
  | rest => rest

/-- Reads a number with blanks around it. -/
def readCount? (f : Flags) (rest : List Char) : Option (Nat × List Char) :=
  let rest := rest.dropWhile Text.isBlank
  let digits := rest.takeWhile (·.isDigit)
  let n := digits.foldl (fun n c => 10 * n + (c.toNat - 0x30)) 0
  if digits.isEmpty || UInt32.size ≤ n then none
  else some (n, (f.skip false (rest.drop digits.length)).dropWhile Text.isBlank)

/-- Reads the bounds of a repetition behind an opening brace. -/
def readBounds? (f : Flags) (rest : List Char) : Option (Nat × Option Nat × List Char) := do
  let (least, rest) ← readCount? f (f.skip false rest)
  match rest with
  | '\x7d' :: rest => return (least, some least, rest)
  | ',' :: rest =>
    match f.skip false rest with
    | '\x7d' :: rest => return (least, none, rest)
    | rest =>
      match ← readCount? f rest with
      | (most, '\x7d' :: rest) => return (least, some most, rest)
      | _ => none
  | _ => none

/-- Reads flags up to a closing parenthesis or a colon; which of them stood there is the
third part of the result. `seen` are the flags that have been read. -/
def readFlags? (f : Flags) (on : Bool) (last : Option Char) (seen : List Char) :
    List Char → Option (Flags × Bool × List Char)
  | [] => none
  | c :: rest =>
    if c == ')' || c == ':' then
      if last == some '-' || (c == ')' && seen.isEmpty) then none
      else some (f, c == ':', rest)
    else if c == '-' then
      if on then readFlags? f false (some c) ('-' :: seen) rest else none
    else if seen.contains c then none
    else
      match f.put? on c with
      | some f => readFlags? f on (some c) (c :: seen) rest
      | none => none

/-- May the character stand in the name of a group? -/
def isGroupChar (first : Bool) (c : Char) : Bool :=
  c == '_' || Unicode.isAlphabetic c ||
    (!first && (c == '.' || c == '[' || c == ']' || Unicode.isOfCategory "N" c))

/-- Reads the name of a group up to its closing angle bracket. -/
def readGroupName? (rest : List Char) : Option (String × List Char) :=
  match rest.takeWhile (· != '>'), rest.dropWhile (· != '>') with
  | first :: more, _ :: rest =>
    if isGroupChar true first && more.all (isGroupChar false) then
      some (String.ofList (first :: more), rest)
    else none
  | _, _ => none

namespace Reader

/-- Opens a group with a name. -/
def openNamed? (r : Reader) (rest : List Char) : Option (Reader × List Char) := do
  let (name, rest) ← readGroupName? rest
  if r.names.contains name then none
  else return ({ r with names := name :: r.names }.openGroup r.flags, rest)

/-- Reads what stands behind an opening parenthesis. -/
def group? (r : Reader) (rest : List Char) : Option (Reader × List Char) :=
  match r.flags.skip false rest with
  | '?' :: '=' :: _ | '?' :: '!' :: _ | '?' :: '<' :: '=' :: _ | '?' :: '<' :: '!' :: _ => none
  | '?' :: 'P' :: '<' :: rest => r.openNamed? rest
  | '?' :: '<' :: rest => r.openNamed? rest
  | '?' :: rest => do
    let (flags, isGroup, rest) ← readFlags? r.flags true none [] rest
    if isGroup then return (r.openGroup flags, rest)
    else return ({ r with flags }.push ⟨.empty, 0, false⟩, rest)
  | rest => some (r.openGroup r.flags, rest)

/-- Reads one piece or mark. -/
def step? (r : Reader) (c : Char) (rest : List Char) : Option (Reader × List Char) :=
  let f := r.flags
  match c with
  | '(' => r.group? rest
  | ')' => (r.closeGroup?).map (·, rest)
  | '|' => some (r.branch, rest)
  | '[' => (readBrackets? f rest).map fun (n, rest) => (r.push ⟨.set n.set, n.depth, true⟩, rest)
  | '?' => (r.repeat? 0 (some 1)).map (·, skipQuestion rest)
  | '*' => (r.repeat? 0 none).map (·, skipQuestion rest)
  | '+' => (r.repeat? 1 none).map (·, skipQuestion rest)
  | '\x7b' => do
    let (least, most, rest) ← readBounds? f rest
    return (← r.repeat? least most, skipQuestion (f.skip false rest))
  | '\\' => do
    match ← readEscape? f rest with
    | (.char c, rest) => return (r.pushChar c, rest)
    | (.set s, rest) =>
      if f.unicode then return (r.pushSet s, rest)
      else if s.hasHigh then none
      else return (r.pushSet s.ascii, rest)
    | (.look l, rest) => return (r.pushLook l, rest)
  | '.' =>
    if !f.unicode then none
    else
      let stops (c : Char) : Bool := !f.dotAll && (c == '\n' || (f.crlf && c == '\r'))
      some (r.pushSet ⟨(!stops ·), 500⟩, rest)
  | '^' => some (r.pushLook (if f.multiLine then .lineStart f.crlf else .textStart), rest)
  | '$' => some (r.pushLook (if f.multiLine then .lineEnd f.crlf else .textEnd), rest)
  | c => some (r.pushChar c, rest)

/-- Reads a pattern to its end, in at most so many steps. -/
def run? (r : Reader) : Nat → List Char → Option Piece
  | 0, _ => none
  | n + 1, rest =>
    match r.flags.skip false rest with
    | [] => if r.around.isEmpty then some r.choice else none
    | c :: rest =>
      match r.step? c rest with
      | some (r, rest) => run? r n rest
      | none => none

end Reader

/-- The deepest nesting that is read. -/
def maxDepth : Nat := 250

/-- The pattern of a text. -/
def ofText? (s : String) : Option Pattern :=
  match ({} : Reader).run? (s.toList.length + 1) s.toList with
  | some p =>
    if p.depth ≤ maxDepth && p.pattern.room ≤ maxRoom then some p.pattern else none
  | none => none

end Pattern
end ClusterSync
