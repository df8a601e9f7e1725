/-
# How a text is written as a scalar

A text is written in the first of these ways that keeps it:

| way | when |
| --- | --- |
| literal lines behind a bar | it has a line feed |
| between single quotes | without quotes it would mean something else |
| without quotes | otherwise |
| between single quotes | without them it would not be read as one text |
| between double quotes | nothing else keeps it |

Literal lines keep no space at the end of a line and no special character; single quotes
keep no space beside a line end and no special character. Special are the characters
that are not printed, tabs among them. Double quotes write those and all line ends as
escapes:

| escape | character |
| --- | --- |
| `\0 \a \b \t \n \v \f \r \e \" \\` | the usual ones |
| `\N \L \P` | `U+0085`, `U+2028`, `U+2029` |
| `\x…`, `\u…`, `\U…` | any other, in two, four or eight capital hexadecimal digits |

No line is ever folded, however long it is.
-/

import ClusterSync.Yaml.Atom

namespace ClusterSync
namespace Yaml

/-- Characters that are printed as they are. Line feeds and the line and paragraph
separators are among them. -/
def isPrinted (c : Char) : Bool :=
  let n := c.toNat
  n == 0x0A || (0x20 ≤ n && n ≤ 0x7E) || (0xA0 ≤ n && n ≠ 0xFEFF && n ≠ 0xFFFE && n ≠ 0xFFFF)

/-- Is there a character of the one class with one of the other right behind it? -/
def hasPair (p q : Char → Bool) : List Char → Bool
  | c :: d :: rest => (p c && q d) || hasPair p q (d :: rest)
  | _ => false

/-- Does a blank, a line end or the end of the text stand here? A zero counts as an end. -/
def atBlank (cs : List Char) : Bool := atGap cs || cs.head? == some '\x00'

/-- Is there a colon with a blank or the end behind it? -/
def hasOpenColon : List Char → Bool
  | [] => false
  | c :: rest => (c == ':' && atBlank rest) || hasOpenColon rest

/-- Would the first characters of a text be taken for a mark? -/
def beginsAsMark : List Char → Bool
  | '-' :: '-' :: '-' :: _ => true
  | '.' :: '.' :: '.' :: _ => true
  | c :: rest =>
    "#,[]\x7b\x7d&*!|>'\"%@\x60".toList.contains c || ((c == '?' || c == '-') && atBlank rest)
  | [] => false

/-- Would a text without quotes be taken for more than a text? -/
def hasMarks (cs : List Char) : Bool :=
  beginsAsMark cs || hasOpenColon cs ||
    hasPair (fun c => atBlank [c]) (· == '#') cs

/-- Is it a space? Tabs are none here. -/
def isBlankSpace (c : Char) : Bool := c == ' '

/-- Can a text be written without quotes? -/
def allowsPlain (cs : List Char) : Bool :=
  cs.all (fun c => isPrinted c && !isBreak c) &&
    !cs.head?.any isBlankSpace && !cs.getLast?.any isBlankSpace && !hasMarks cs

/-- Can a text be written between single quotes? -/
def allowsSingle (cs : List Char) : Bool :=
  cs.all isPrinted && !hasPair isBreak isBlankSpace cs && !hasPair isBlankSpace isBreak cs

/-- Can a text be written as literal lines? -/
def allowsLiteral (cs : List Char) : Bool :=
  cs.all isPrinted && !cs.getLast?.any isBlankSpace && !hasPair isBlankSpace isBreak cs

/-- Would a text without quotes mean something else, or look too much like a number? -/
def readsOtherwise (s : String) : Bool :=
  (match Atom.ofPlain s with
    | .text _ => false
    | _ => true) || isPaddedNumber s.toList

/-- The way in which a text is written. -/
def Style.ofText (s : String) : Style :=
  let cs := s.toList
  let quoted : Style := if allowsSingle cs then .single else .double
  if cs.contains '\n' then if allowsLiteral cs then .literal else .double
  else if readsOtherwise s then quoted
  else if allowsPlain cs then .plain
  else quoted

/-- So many spaces. -/
def spaces (n : Nat) : List Char := List.replicate n ' '

/-- A capital hexadecimal digit. -/
def capitalDigit (n : Nat) : Char :=
  if n < 10 then Char.ofNat (0x30 + n) else Char.ofNat (0x37 + n)

/-- A number in so many capital hexadecimal digits. -/
def capitalHex (n : Nat) : Nat → List Char
  | 0 => []
  | width + 1 => capitalHex (n / 16) width ++ [capitalDigit (n % 16)]

/-- The letter that an escape has for a character. -/
def escapeLetter? (c : Char) : Option Char :=
  match c with
  | '\x00' => some '0'
  | '\x07' => some 'a'
  | '\x08' => some 'b'
  | '\t' => some 't'
  | '\n' => some 'n'
  | '\x0B' => some 'v'
  | '\x0C' => some 'f'
  | '\r' => some 'r'
  | '\x1B' => some 'e'
  | '"' => some '"'
  | '\\' => some '\\'
  | '\u0085' => some 'N'
  | '\u2028' => some 'L'
  | '\u2029' => some 'P'
  | _ => none

/-- A character between double quotes. -/
def doubleChar (c : Char) : List Char :=
  if isPrinted c && !isBreak c && c != '"' && c != '\\' then [c]
  else
    match escapeLetter? c with
    | some letter => ['\\', letter]
    | none =>
      let n := c.toNat
      if n ≤ 0xFF then '\\' :: 'x' :: capitalHex n 2
      else if n ≤ 0xFFFF then '\\' :: 'u' :: capitalHex n 4
      else '\\' :: 'U' :: capitalHex n 8

/-- The characters of a text between single quotes: quotes twice, and what follows a line
end is moved to column `indent`. `fresh` says that a line has just ended. -/
def singleChars (indent : Nat) (fresh : Bool) : List Char → List Char
  | [] => if fresh then spaces indent else []
  | c :: rest =>
    if isBreak c then c :: singleChars indent true rest
    else
      (if fresh then spaces indent else []) ++
        (if c == '\'' then ['\'', '\''] else [c]) ++ singleChars indent false rest

/-- The lines of a literal at column `indent`, the last one ended. `fresh` says that a
line has just ended. -/
def literalChars (indent : Nat) (fresh : Bool) : List Char → List Char
  | [] => if fresh then [] else ['\n']
  | c :: rest =>
    if isBreak c then c :: literalChars indent true rest
    else (if fresh then spaces indent else []) ++ c :: literalChars indent false rest

/-- What a literal says about its ends: its indentation, if the first line begins with a
space or is empty, and whether line ends at the end are dropped or all kept. -/
def literalHints (cs : List Char) : List Char :=
  (if cs.head?.any fun c => c == ' ' || isBreak c then ['2'] else []) ++
    match cs.reverse with
    | [] => ['-']
    | [c] => if isBreak c then ['+'] else ['-']
    | c :: d :: _ => if !isBreak c then ['-'] else if isBreak d then ['+'] else []

/-- A text in its way, with the line ended. Further lines stand at column `indent`. -/
def writeText (indent : Nat) (s : String) : List Char :=
  let cs := s.toList
  match Style.ofText s with
  | .single => '\'' :: singleChars indent false cs ++ ['\'', '\n']
  | .double => '"' :: cs.flatMap doubleChar ++ ['"', '\n']
  | .literal | .folded => '|' :: literalHints cs ++ '\n' :: literalChars indent true cs
  | .plain => cs ++ ['\n']

/-- Is a text short enough for a key in front of a colon? It must be one line of at most
128 bytes. -/
def isShortKey (s : String) : Bool := Text.size s ≤ 128 && !s.toList.any isBreak

end Yaml
end ClusterSync
