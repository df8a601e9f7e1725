/-
# Flags and escapes of patterns

Flags change how what follows is read, up to the end of the group:

| flag | effect |
| --- | --- |
| `i` | letters match in either case |
| `m` | `^` and `$` match at line ends |
| `s` | a point matches line feeds too |
| `R` | carriage returns end lines too |
| `U` | repetitions prefer to be short |
| `u` | characters are those of Unicode; set at first |
| `x` | blanks and comments are left out |

A backslash in front of a character makes it stand for itself, for one character, for a
set, or for a look at what stands beside a place.
-/

import ClusterSync.Pattern.Match

namespace ClusterSync
namespace Pattern

/-- How a pattern is being read. -/
structure Flags where
  ignoreCase : Bool := false
  multiLine : Bool := false
  dotAll : Bool := false
  crlf : Bool := false
  unicode : Bool := true
  verbose : Bool := false

namespace Flags

/-- The flags with one of them set or cleared. -/
def put? (f : Flags) (on : Bool) : Char → Option Flags
  | 'i' => some { f with ignoreCase := on }
  | 'm' => some { f with multiLine := on }
  | 's' => some { f with dotAll := on }
  | 'R' => some { f with crlf := on }
  | 'U' => some f
  | 'u' => some { f with unicode := on }
  | 'x' => some { f with verbose := on }
  | _ => none

/-- The characters that words are made of. -/
def word (f : Flags) : CharSet :=
  if f.unicode then .word else (CharSet.asciiClass? "word").getD .empty

/-- The set with the characters that differ from its members in case, if case is ignored. -/
def folded (f : Flags) (s : CharSet) : CharSet :=
  if !f.ignoreCase then s else if f.unicode then s.fold else s.foldAscii

/-- The text from the next character that counts on. -/
def skip (f : Flags) : Bool → List Char → List Char
  | _, [] => []
  | comment, c :: rest =>
    if !f.verbose then c :: rest
    else if comment then skip f (c != '\n') rest
    else if Text.isBlank c then skip f false rest
    else if c == '#' then skip f true rest
    else c :: rest

end Flags

/-- What an escape stands for. -/
inductive Escape
  | char (c : Char)
  | set (s : CharSet)
  | look (l : Look)

/-- Characters that mean something in a pattern. -/
def isMeta (c : Char) : Bool :=
  "\\.+*?()|[]\x7b\x7d^$#&-~".toList.contains c

/-- May the character stand for itself behind a backslash? -/
def isEscapable (c : Char) : Bool :=
  isMeta c || (c.toNat < 0x80 && !c.isAlphanum && c != '<' && c != '>')

/-- The value of a hexadecimal digit. -/
def hexValue? (c : Char) : Option Nat :=
  if c.isDigit then some (c.toNat - 0x30)
  else if 'a' ≤ c && c ≤ 'f' then some (c.toNat - 0x57)
  else if 'A' ≤ c && c ≤ 'F' then some (c.toNat - 0x37)
  else none

/-- The number of hexadecimal digits, which must not be too great for a character. -/
def hexNumber? (cs : List Char) : Option Nat :=
  cs.foldl (fun n c =>
    match n, hexValue? c with
    | some n, some d => if 16 * n + d < 0x110000 then some (16 * n + d) else none
    | _, _ => none) (some 0)

/-- The character of a code point. -/
def charOf? (n : Nat) : Option Char :=
  if n.isValidChar then some (Char.ofNat n) else none

/-- Takes so many characters; blanks between them do not count where that is set. -/
def takeDigits? (f : Flags) : Nat → List Char → Option (List Char × List Char)
  | 0, rest => some ([], rest)
  | n + 1, c :: rest => do
    let (cs, rest) ← takeDigits? f n (f.skip false rest)
    return (c :: cs, rest)
  | _ + 1, [] => none

/-- Takes the characters up to a closing brace, and the brace. -/
def takeBraced? (f : Flags) : Nat → List Char → Option (List Char × List Char)
  | _, [] => none
  | 0, _ => none
  | n + 1, c :: rest =>
    if c == '\x7d' then some ([], rest)
    else do
      let (cs, rest) ← takeBraced? f n (f.skip false rest)
      return (c :: cs, rest)

/-- Reads a code point behind `x`, `u` or `U`: in braces, or in so many digits. -/
def readHex? (f : Flags) (width : Nat) (rest : List Char) : Option (Char × List Char) := do
  let (digits, rest) ←
    match rest with
    | '\x7b' :: rest =>
      let rest := f.skip false rest
      takeBraced? f rest.length rest
    | rest => takeDigits? f width rest
  let n ← if digits.isEmpty then none else hexNumber? digits
  return (← charOf? n, f.skip false rest)

/-- Reads the name of a class of characters behind `p` or `P`. -/
def readClass? (f : Flags) (rest : List Char) : Option (CharSet × List Char) := do
  let (cls, rest) ←
    match rest with
    | '\x7b' :: rest =>
      let rest := f.skip false rest
      let (name, rest) ← takeBraced? f rest.length rest
      let isMark (c : Char) : Bool := c == '!' || c == ':' || c == '='
      let before := name.takeWhile (!isMark ·)
      match name.dropWhile (!isMark ·) with
      | '!' :: '=' :: value =>
        let p ← Unicode.classOf? (String.ofList before) (String.ofList value)
        some ((fun c => !p c), rest)
      | [] => some (← Unicode.class? (String.ofList name), rest)
      | _ :: value =>
        some (← Unicode.classOf? (String.ofList before) (String.ofList value), rest)
    | '\\' :: _ => none
    | c :: rest => some (← Unicode.class? (String.ofList [c]), f.skip false rest)
    | [] => none
  if f.unicode then return (f.folded (.property cls), rest) else none

/-- One of the three sets that have a letter of their own, or its complement. -/
def letterSet (f : Flags) (letter : Char) : CharSet :=
  let (full, name) : CharSet × String :=
    match letter.toLower with
    | 'd' => (.digit, "digit")
    | 's' => (.blank, "space")
    | _ => (.word, "word")
  let s := if f.unicode then full else (CharSet.asciiClass? name).getD .empty
  if letter.isUpper then s.compl else s

/-- The look that a word in braces behind `\b` names. -/
def boundaryOf? (f : Flags) (name : List Char) : Option Look :=
  match String.ofList name with
  | "start" => some (.wordStart f.word)
  | "end" => some (.wordEnd f.word)
  | "start-half" => some (.halfStart f.word)
  | "end-half" => some (.halfEnd f.word)
  | _ => none

/-- Reads what follows `\b`: the name of a look in braces, if letters stand there. -/
def readBoundary? (f : Flags) (rest : List Char) : Option (Look × List Char) :=
  match rest with
  | '\x7b' :: inner =>
    let inner := f.skip false inner
    match inner with
    | [] => none
    | c :: _ =>
      if c.isAlpha || c == '-' then do
        let (name, rest) ← takeBraced? f inner.length inner
        return (← boundaryOf? f name, rest)
      else some (.boundary f.word, rest)
  | rest => some (.boundary f.word, rest)

/-- Reads what stands behind a backslash. -/
def readEscape? (f : Flags) : List Char → Option (Escape × List Char)
  | [] => none
  | c :: rest =>
    let char (c : Char) : Option (Escape × List Char) := some (.char c, rest)
    match c with
    | 'x' => do
      let rest := f.skip false rest
      let (d, after) ← readHex? f 2 rest
      if !f.unicode && rest.head? != some '\x7b' && 0x80 ≤ d.toNat then none
      else return (.char d, after)
    | 'u' => (readHex? f 4 (f.skip false rest)).map fun (d, rest) => (.char d, rest)
    | 'U' => (readHex? f 8 (f.skip false rest)).map fun (d, rest) => (.char d, rest)
    | 'p' => (readClass? f (f.skip false rest)).map fun (s, rest) => (.set s, rest)
    | 'P' => (readClass? f (f.skip false rest)).map fun (s, rest) => (.set s.compl, rest)
    | 'd' | 's' | 'w' | 'D' | 'S' | 'W' => some (.set (letterSet f c), rest)
    | 'a' => char '\x07'
    | 'f' => char '\x0C'
    | 't' => char '\t'
    | 'n' => char '\n'
    | 'r' => char '\r'
    | 'v' => char '\x0B'
    | 'A' => some (.look .textStart, rest)
    | 'z' => some (.look .textEnd, rest)
    | 'b' => (readBoundary? f rest).map fun (l, rest) => (.look l, rest)
    | 'B' => some (.look (.noBoundary f.word), rest)
    | '<' => some (.look (.wordStart f.word), rest)
    | '>' => some (.look (.wordEnd f.word), rest)
    | c => if isEscapable c then char c else none

end Pattern
end ClusterSync
