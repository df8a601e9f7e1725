/-
# Reading the tables of character properties

The tables are lines of words, with code points in hexadecimal digits:

| word | meaning |
| --- | --- |
| `41-5A` | the code points from `41` to `5A` |
| `100=12E` | every second one from `100` to `12E` |
| `41` | one code point |
| `41-5A>61` | the same code points, each moved as far as `41` is to `61` |
-/

import ClusterSync.Text.Blank

namespace ClusterSync
namespace Unicode

/-- The number that hexadecimal digits stand for. -/
def readHex (cs : List Char) : Nat :=
  cs.foldl (fun n c => 16 * n + (if c.toNat < 0x41 then c.toNat - 0x30 else c.toNat - 0x37)) 0

/-- Code points at even distances, with where the first one is moved to. -/
structure Span where
  first : Nat
  last : Nat
  step : Nat
  target : Nat

namespace Span

/-- Reads one word of a table. -/
def ofWord (word : List Char) : Span :=
  let (source, target) := (word.takeWhile (· != '>'), (word.dropWhile (· != '>')).drop 1)
  let isEnd (c : Char) : Bool := c != '-' && c != '='
  let first := readHex (source.takeWhile isEnd)
  let rest := source.dropWhile isEnd
  { first
    last := if rest.isEmpty then first else readHex (rest.drop 1)
    step := if rest.head? = some '=' then 2 else 1
    target := if target.isEmpty then first else readHex target }

/-- Does a code point belong to the span? -/
def contains (s : Span) (n : Nat) : Bool :=
  s.first ≤ n && n ≤ s.last && (n - s.first) % s.step == 0

/-- Where the span moves a code point that belongs to it. -/
def move (s : Span) (n : Nat) : Nat := s.target + (n - s.first)

/-- The code points of the span. -/
def members (s : Span) : List Nat :=
  (List.range ((s.last - s.first) / s.step + 1)).map fun i => s.first + i * s.step

/-- Reads the lines of a table. -/
def ofTable (table : List String) : Array Span :=
  (table.flatMap fun line => (Text.splitOn ' ' line.toList).map ofWord).toArray

end Span

/-- Looks up the last span that begins at or before a code point, in a table of
increasing spans. The answer lies in `lo ≤ i < hi`, if there is one. -/
def findSpan (spans : Array Span) (n lo hi : Nat) : Option Span :=
  if hi ≤ lo + 1 then
    match spans[lo]? with
    | some s => if s.first ≤ n then some s else none
    | none => none
  else
    let mid := (lo + hi) / 2
    match spans[mid]? with
    | some s => if s.first ≤ n then findSpan spans n mid hi else findSpan spans n lo mid
    | none => none
termination_by hi - lo
decreasing_by all_goals omega

/-- The span of a table that a code point belongs to. -/
def span? (spans : Array Span) (n : Nat) : Option Span :=
  (findSpan spans n 0 spans.size).filter (·.contains n)

end Unicode
end ClusterSync
