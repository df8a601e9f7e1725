/-
# Patterns and what they match

A pattern describes texts. It is looked for anywhere in a text: it is found if some part
of the text fits it, and looks at what stands beside a place can be part of it.

A text of `n` characters has `n + 1` places. `reach` carries a set of places through a
pattern: from where matching may begin to where it may end. A repetition without a
bound has been carried through after as many rounds as there are places, since each round
before that adds one.
-/

import ClusterSync.Pattern.CharSet

namespace ClusterSync

/-- What is looked at beside a place. -/
inductive Look
  | textStart
  | textEnd
  /-- The start of a line; with `crlf`, carriage returns end lines too. -/
  | lineStart (crlf : Bool)
  | lineEnd (crlf : Bool)
  /-- A word begins or ends here. Words are made of characters of a set. -/
  | boundary (word : CharSet)
  | noBoundary (word : CharSet)
  | wordStart (word : CharSet)
  | wordEnd (word : CharSet)
  | halfStart (word : CharSet)
  | halfEnd (word : CharSet)

namespace Look

/-- Does the look succeed between two characters? At the ends of the text there is none on
one side. -/
def holds (before after : Option Char) : Look → Bool
  | textStart => before.isNone
  | textEnd => after.isNone
  | lineStart false => before.all (· == '\n')
  | lineEnd false => after.all (· == '\n')
  | lineStart true => before.all fun b => b == '\n' || (b == '\r' && after != some '\n')
  | lineEnd true => after.all fun a => a == '\r' || (a == '\n' && before != some '\r')
  | boundary w => before.any w.contains != after.any w.contains
  | noBoundary w => before.any w.contains == after.any w.contains
  | wordStart w => !before.any w.contains && after.any w.contains
  | wordEnd w => before.any w.contains && !after.any w.contains
  | halfStart w => !before.any w.contains
  | halfEnd w => !after.any w.contains

end Look

/-- A pattern. -/
inductive Pattern
  | empty
  | set (s : CharSet)
  | look (l : Look)
  | seq (p q : Pattern)
  | alt (p q : Pattern)
  /-- So many times the pattern; without `most` there is no bound. -/
  | times (p : Pattern) (least : Nat) (most : Option Nat)

namespace Pattern

/-- The places behind those where a character of a set stands. -/
def shift (s : CharSet) : List Char → List Bool → List Bool
  | c :: cs, here :: rest => (here && s.contains c) :: shift s cs rest
  | _, _ => []

/-- The places where a look succeeds. -/
def look? (l : Look) (before : Option Char) : List Char → List Bool → List Bool
  | c :: cs, here :: rest => (here && l.holds before (some c)) :: look? l (some c) cs rest
  | [], here :: _ => [here && l.holds before none]
  | _, [] => []

/-- The places of either set. -/
def join (a b : List Bool) : List Bool := List.zipWith (· || ·) a b

/-- A step done again and again, up to `n` times; it ends when a round changes nothing. -/
def rounds (step : List Bool → List Bool) (here : List Bool) : Nat → List Bool
  | 0 => here
  | n + 1 =>
    let next := step here
    if next = here then here else rounds step next n

/-- The places where matching may end if it begins at one of the given places. -/
def reach (text : List Char) : Pattern → List Bool → List Bool
  | empty, here => here
  | set s, here => false :: shift s text here
  | look l, here => look? l none text here
  | seq p q, here => reach text q (reach text p here)
  | alt p q, here => join (reach text p here) (reach text q here)
  | times p least most, here =>
    let start := rounds (reach text p) here least
    let further := match most with
      | some m => m - least
      | none => text.length + 1
    rounds (fun s => join s (reach text p s)) start further

/-- Is the pattern found in a text? -/
def isIn (p : Pattern) (s : String) : Bool :=
  let text := s.toList
  (reach text p (List.replicate (text.length + 1) true)).contains true

/-- The room that a compiled pattern takes, roughly. Each repetition that has to be there
takes room of its own. -/
def room : Pattern → Nat
  | empty => 32
  | set s => s.room
  | look _ => 32
  | seq p q => p.room + q.room
  | alt p q => p.room + q.room + 64
  | times p least none => max least 1 * p.room + 64
  | times p least (some most) => least * p.room + (most - least) * (p.room + 64)

/-- The most room that a compiled pattern may take. -/
def maxRoom : Nat := 10 * 1024 * 1024

end Pattern
end ClusterSync
