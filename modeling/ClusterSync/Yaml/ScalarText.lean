/-
# Scalars in the text of a document

A scalar in quotes, or a plain one, may run over several lines. Between two words of it
stands a gap:

| gap | stands for |
| --- | --- |
| spaces and tabs only | themselves |
| one line end | a space |
| several line ends | all but the first |

Spaces around line ends do not count, and `U+2028` and `U+2029` always count. In double
quotes a backslash at the end of a line takes the line end away.

In a block scalar the lines are kept (`|`), or joined with spaces where neither line
begins with white space (`>`). All lines carry the indentation of the first one that
is not empty, or the one given. At the end, `-` drops the last line end, `+` keeps
all of them and otherwise one is kept.

Every reader goes through the text once, character by character, and returns the text of
the scalar with the cursor behind it.
-/

import ClusterSync.Yaml.Token

namespace ClusterSync
namespace Yaml

/-- What has been read since the last word of a scalar. -/
structure Gap where
  /-- White space, as long as no line has ended; last character first. -/
  spaces : List Char := []
  /-- Has a line ended? -/
  broken : Bool := false
  /-- The first line end. -/
  first : List Char := []
  /-- The line ends after it, last one first. -/
  more : List Char := []

namespace Gap

/-- Has anything been read? -/
def isOpen (g : Gap) : Bool := g.broken || !g.spaces.isEmpty

/-- The gap with one more space or tab. -/
def addSpace (g : Gap) (c : Char) : Gap :=
  if g.broken then g else { g with spaces := c :: g.spaces }

/-- The gap with one more line end. -/
def addBreak (g : Gap) (c : Char) : Gap :=
  if g.broken then { g with more := keptBreak c :: g.more }
  else { spaces := [], broken := true, first := [keptBreak c], more := [] }

/-- What the gap stands for, last character first. -/
def reversed (g : Gap) : List Char :=
  if g.broken then
    if g.first = ['\n'] then if g.more.isEmpty then [' '] else g.more
    else g.more ++ g.first
  else g.spaces

end Gap

/-- A scalar that has been read, with the cursor behind it. -/
structure ScalarEnd where
  text : List Char
  cursor : Cursor
  /-- Did a line end stand last? -/
  brokeLine : Bool := false

/-- Reads a text in single quotes; two of them stand for one. `done` is what has been
read, last character first. -/
def readSingle (done : List Char) (gap : Gap) (place : Place) : List Char → Option ScalarEnd
  | [] => none
  | '\'' :: '\'' :: rest => readSingle ('\'' :: gap.reversed ++ done) {} (place.move 2) rest
  | '\'' :: rest => some ⟨(gap.reversed ++ done).reverse, ⟨rest, place.move⟩, false⟩
  | '\r' :: '\n' :: rest => readSingle done (gap.addBreak '\n') (place.nextLine 2) rest
  | c :: rest =>
    if isSpace c then readSingle done (gap.addSpace c) place.move rest
    else if isBreak c then readSingle done (gap.addBreak c) place.nextLine rest
    else if place.column = 0 && atDocumentMark (c :: rest) then none
    else readSingle (c :: gap.reversed ++ done) {} place.move rest

/-- What a backslash and a character stand for in double quotes. -/
def escaped? (c : Char) : Option Char :=
  match c with
  | '0' => some '\x00'
  | 'a' => some '\x07'
  | 'b' => some '\x08'
  | 't' => some '\t'
  | '\t' => some '\t'
  | 'n' => some '\n'
  | 'v' => some '\x0B'
  | 'f' => some '\x0C'
  | 'r' => some '\r'
  | 'e' => some '\x1B'
  | ' ' => some ' '
  | '"' => some '"'
  | '/' => some '/'
  | '\\' => some '\\'
  | 'N' => some '\u0085'
  | '_' => some '\u00A0'
  | 'L' => some '\u2028'
  | 'P' => some '\u2029'
  | _ => none

/-- How many hexadecimal digits follow a backslash and a character in double quotes. -/
def escapeDigits? (c : Char) : Option Nat :=
  match c with
  | 'x' => some 2
  | 'u' => some 4
  | 'U' => some 8
  | _ => none

/-- The number that a hexadecimal digit of either case stands for. -/
def hexDigit? (c : Char) : Option Nat :=
  if c.isDigit then some (c.toNat - 0x30)
  else if 'A' ≤ c ∧ c ≤ 'F' then some (c.toNat - 0x37)
  else if 'a' ≤ c ∧ c ≤ 'f' then some (c.toNat - 0x57)
  else none

/-- Where a reader of double quotes stands. -/
inductive DoubleState
  /-- Among ordinary characters. -/
  | text
  /-- Behind a backslash. -/
  | escape
  /-- Among the digits of an escape: how many are left, and what they make so far. -/
  | digits (left value : Nat)

/-- Reads a text in double quotes. `done` is what has been read, last character first. -/
def readDouble (done : List Char) (gap : Gap) (state : DoubleState) (place : Place) :
    List Char → Option ScalarEnd
  | [] => none
  | '\r' :: '\n' :: rest =>
    match state with
    | .escape => readDouble done { broken := true } .text (place.nextLine 2) rest
    | .digits .. => none
    | .text => readDouble done (gap.addBreak '\n') .text (place.nextLine 2) rest
  | c :: rest =>
    match state with
    | .escape =>
      match escapeDigits? c, escaped? c with
      | some n, _ => readDouble done {} (.digits n 0) place.move rest
      | none, some e => readDouble (e :: done) {} .text place.move rest
      | none, none =>
        if isBreak c then readDouble done { broken := true } .text place.nextLine rest else none
    | .digits left value =>
      match hexDigit? c with
      | none => none
      | some d =>
        let value := 16 * value + d
        if 1 < left then readDouble done {} (.digits (left - 1) value) place.move rest
        else if (0xD800 ≤ value && value ≤ 0xDFFF) || 0x10FFFF < value then none
        else readDouble (Char.ofNat value :: done) {} .text place.move rest
    | .text =>
      if c == '"' then some ⟨(gap.reversed ++ done).reverse, ⟨rest, place.move⟩, false⟩
      else if isSpace c then readDouble done (gap.addSpace c) .text place.move rest
      else if isBreak c then readDouble done (gap.addBreak c) .text place.nextLine rest
      else if place.column = 0 && atDocumentMark (c :: rest) then none
      else if c == '\\' then readDouble (gap.reversed ++ done) {} .escape place.move rest
      else readDouble (c :: gap.reversed ++ done) {} .text place.move rest

/-- Is it a mark that ends a plain scalar inside a flow collection? -/
def isFlowMark (c : Char) : Bool :=
  c == ',' || c == '[' || c == ']' || c == '{' || c == '}'

/-- Does a plain scalar end in front of these characters? -/
def endsPlain (flow : Bool) : List Char → Bool
  | ':' :: rest => atGap rest
  | c :: _ => flow && isFlowMark c
  | [] => true

/-- Inside a flow collection, a colon in front of a mark is refused. -/
def badColon (flow : Bool) : List Char → Bool
  | ':' :: c :: _ => flow && (isFlowMark c || c == '?')
  | _ => false

/-- Reads a plain scalar. Outside flow collections its further lines have to be
indented to `indent` at least. -/
def readPlain (flow : Bool) (indent : Nat) (done : List Char) (gap : Gap) (place : Place) :
    List Char → Option ScalarEnd
  | [] => some ⟨done.reverse, ⟨[], place⟩, gap.broken⟩
  | '\r' :: '\n' :: rest =>
    readPlain flow indent done (gap.addBreak '\n') (place.nextLine 2) rest
  | c :: rest =>
    if isSpace c then
      if gap.broken && place.column < indent && c == '\t' then none
      else readPlain flow indent done (gap.addSpace c) place.move rest
    else if isBreak c then readPlain flow indent done (gap.addBreak c) place.nextLine rest
    else if (gap.isOpen && ((!flow && place.column < indent) || c == '#')) ||
        (place.column = 0 && atDocumentMark (c :: rest)) then
      some ⟨done.reverse, ⟨c :: rest, place⟩, gap.broken⟩
    else if badColon flow (c :: rest) then none
    else if endsPlain flow (c :: rest) then
      some ⟨done.reverse, ⟨c :: rest, place⟩, gap.broken⟩
    else readPlain flow indent (c :: gap.reversed ++ done) {} place.move rest

/-- What becomes of the line ends behind a block scalar. -/
inductive Chomping
  | strip
  | clip
  | keep
deriving DecidableEq

/-- A block scalar while it is read. -/
structure Block where
  literal : Bool
  chomping : Chomping
  /-- The indentation of the lines, once it is known. -/
  indent : Option Nat
  /-- The least indentation that may be found. -/
  least : Nat
  /-- The deepest indentation of the empty lines before the first line. -/
  deepest : Nat := 0
  /-- Among the characters of a line, rather than in its indentation? -/
  inLine : Bool := false
  /-- The lines read so far without the last line end, last character first. -/
  done : List Char := []
  /-- The line end of the last line. -/
  ended : List Char := []
  /-- The ends of empty lines after it, last one first. -/
  empties : List Char := []
  /-- Did the last line begin with white space? -/
  indented : Bool := false

namespace Block

/-- Is the column still within the indentation? -/
def inMargin (b : Block) (column : Nat) : Bool :=
  match b.indent with
  | none => true
  | some n => column < n

/-- The block with its indentation settled at the first line that is not empty. -/
def settle (b : Block) (column : Nat) : Block :=
  match b.indent with
  | some _ => b
  | none => { b with indent := some (max (max b.deepest column) b.least) }

/-- The block at the first character of a new line: the line end before it, and those of
empty lines, are kept or, between two folded lines, become a space. -/
def beginLine (b : Block) (c : Char) : Block :=
  let folds := !b.literal && b.ended == ['\n'] && !b.indented && !isSpace c
  let between :=
    if folds then (if b.empties.isEmpty then [' '] else b.empties) else b.empties ++ b.ended
  { b with
    inLine := true
    done := c :: between ++ b.done
    ended := []
    empties := []
    indented := isSpace c }

/-- The text of the block. -/
def finish (b : Block) : List Char :=
  let tail :=
    match b.chomping with
    | .strip => []
    | .clip => b.ended
    | .keep => b.empties ++ b.ended
  (tail ++ b.done).reverse

end Block

/-- Reads a block scalar from the line after its header. -/
def readBlock (b : Block) (place : Place) : List Char → Option ScalarEnd
  | [] => some ⟨b.finish, ⟨[], place⟩, false⟩
  | '\r' :: '\n' :: rest =>
    if b.inLine then
      readBlock { b with inLine := false, ended := ['\n'] } (place.nextLine 2) rest
    else
      readBlock { b with empties := '\n' :: b.empties, deepest := max b.deepest place.column }
        (place.nextLine 2) rest
  | c :: rest =>
    if b.inLine then
      if isBreak c then
        readBlock { b with inLine := false, ended := [keptBreak c] } place.nextLine rest
      else readBlock { b with done := c :: b.done } place.move rest
    else if b.inMargin place.column && c == ' ' then readBlock b place.move rest
    else if b.inMargin place.column && c == '\t' then none
    else if isBreak c then
      readBlock { b with empties := keptBreak c :: b.empties,
                         deepest := max b.deepest place.column } place.nextLine rest
    else
      let b := b.settle place.column
      if b.indent = some place.column then readBlock (b.beginLine c) place.move rest
      else some ⟨b.finish, ⟨c :: rest, place⟩, false⟩

end Yaml
end ClusterSync
