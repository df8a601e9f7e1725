/-
# Directives, tags, anchors and block headers

The tokens that are more than one character and no scalar.

* A directive line is `%YAML` with a version, or `%TAG` with a handle and what it stands
  for.
* A tag is `!<uri>`, or a handle and a suffix: `!name`, `!!name`, `!handle!name`. In the
  last form both are needed; `!` alone is the tag of no handle whose suffix is `!`.
* In a tag, `%` and two hexadecimal digits stand for a byte of a UTF-8 character.
* An anchor or an alias is a name of ASCII letters, digits, `_` and `-`.
-/

import ClusterSync.Text.Lossy
import ClusterSync.Yaml.ScalarText

namespace ClusterSync
namespace Yaml

/-- The rest of a line may hold blanks and a comment; the cursor behind its end. -/
def skipLineRest? (c : Cursor) : Option Cursor :=
  let c := c.skipWhile isSpace
  let c := if c.rest.head? = some '#' then c.skipWhile (!isBreak ·) else c
  if atLineEnd c.rest then some c.skipBreak else none

/-- Characters of a tag. Inside `<` and `>`, and in directives, commas and brackets are
allowed too. -/
def isUriChar (bracketed : Bool) (c : Char) : Bool :=
  isNameChar c || [';', '/', '?', ':', '@', '&', '=', '+', '$', '.', '%', '!', '~', '*',
    '\'', '(', ')'].contains c || (bracketed && (c == ',' || c == '[' || c == ']'))

/-- How many bytes a UTF-8 character has that begins with this byte. -/
def utf8Width? (b : Nat) : Option Nat :=
  if b < 0x80 then some 1
  else if 0xC0 ≤ b ∧ b < 0xE0 then some 2
  else if 0xE0 ≤ b ∧ b < 0xF0 then some 3
  else if 0xF0 ≤ b ∧ b < 0xF8 then some 4
  else none

/-- The bytes of a tag; `left` more bytes of a character have to be escaped. -/
def uriBytes? (left : Nat) : List Char → Option (List UInt8)
  | '%' :: a :: b :: rest =>
    match hexDigit? a, hexDigit? b with
    | some x, some y =>
      let byte := 16 * x + y
      let next :=
        if left = 0 then (utf8Width? byte).map (· - 1)
        else if 0x80 ≤ byte ∧ byte < 0xC0 then some (left - 1) else none
      match next with
      | some left => (uriBytes? left rest).map (UInt8.ofNat byte :: ·)
      | none => none
    | _, _ => none
  | c :: rest =>
    if left ≠ 0 || c == '%' then none
    else (uriBytes? 0 rest).map (String.utf8EncodeChar c ++ ·)
  | [] => if left = 0 then some [] else none

/-- Reads the text of a tag. -/
def readUri? (bracketed : Bool) (c : Cursor) : Option (String × Cursor) :=
  let run := c.rest.takeWhile (isUriChar bracketed)
  match uriBytes? 0 run with
  | some bytes => some (String.ofList (Text.decodeLossy bytes), c.skip run.length)
  | none => none

/-- Reads a handle: `!`, `!!` or `!name!`. What looks like the beginning of one is read
too, with `false`, and belongs to a suffix. -/
def readHandle? (c : Cursor) : Option (String × Bool × Cursor) :=
  match c.rest with
  | '!' :: rest =>
    let run := rest.takeWhile isNameChar
    let behind := c.skip (run.length + 1)
    match behind.rest with
    | '!' :: _ => some (String.ofList ('!' :: run ++ ['!']), true, behind.next)
    | _ => some (String.ofList ('!' :: run), false, behind)
  | _ => none

/-- Reads a tag. -/
def readTag? (flow : Bool) (c : Cursor) : Option (Token × Cursor) :=
  let found : Option (Token × Cursor) :=
    match c.rest with
    | '!' :: '<' :: _ =>
      match readUri? true (c.skip 2) with
      | some (uri, behind) =>
        if uri.isEmpty || behind.rest.head? ≠ some '>' then none
        else some (.tag "" uri, behind.next)
      | none => none
    | _ =>
      match readHandle? c with
      | some (handle, true, behind) =>
        match readUri? false behind with
        | some (uri, behind) => if uri.isEmpty then none else some (.tag handle uri, behind)
        | none => none
      | some (start, false, behind) =>
        match readUri? false behind with
        | some (uri, behind) =>
          let suffix := String.ofList (start.toList.drop 1) ++ uri
          some (if suffix.isEmpty then .tag "" "!" else .tag "!" suffix, behind)
        | none => none
      | none => none
  match found with
  | some (token, behind) =>
    if atGap behind.rest || (flow && behind.rest.head? = some ',') then some (token, behind)
    else none
  | none => none

/-- Reads the name of an anchor or an alias. -/
def readName? (c : Cursor) : Option (String × Cursor) :=
  let run := c.rest.takeWhile isNameChar
  let behind := c.skip run.length
  let ends := atGap behind.rest ||
    match behind.rest with
    | c :: _ => ['?', ':', ',', ']', '}', '%', '@', '`'].contains c
    | [] => true
  if run.isEmpty || !ends then none else some (String.ofList run, behind)

/-- Reads a number of at most nine digits. -/
def readNumber? (c : Cursor) : Option (Nat × Cursor) :=
  let run := c.rest.takeWhile (·.isDigit)
  if run.isEmpty || 9 < run.length then none
  else some (run.foldl (fun n d => 10 * n + (d.toNat - 0x30)) 0, c.skip run.length)

/-- Reads the version of a `%YAML` directive. -/
def readVersion? (c : Cursor) : Option (Token × Cursor) :=
  match readNumber? (c.skipWhile isSpace) with
  | some (major, behind) =>
    if behind.rest.head? = some '.' then
      match readNumber? behind.next with
      | some (minor, behind) => some (.version major minor, behind)
      | none => none
    else none
  | none => none

/-- Reads the handle of a `%TAG` directive and what it stands for. -/
def readTagDirective? (c : Cursor) : Option (Token × Cursor) :=
  match readHandle? (c.skipWhile isSpace) with
  | some (handle, whole, behind) =>
    if (whole || handle = "!") && behind.rest.head?.any isSpace then
      match readUri? true (behind.skipWhile isSpace) with
      | some (uri, behind) =>
        if uri.isEmpty || !atGap behind.rest then none
        else some (.tagDirective handle uri, behind)
      | none => none
    else none
  | none => none

/-- Reads a directive line behind its `%`. -/
def readDirective? (c : Cursor) : Option (Token × Cursor) :=
  let name := c.rest.takeWhile isNameChar
  let behind := c.skip name.length
  if !atGap behind.rest then none
  else
    let found :=
      if name = "YAML".toList then readVersion? behind
      else if name = "TAG".toList then readTagDirective? behind
      else none
    match found with
    | some (token, behind) => (skipLineRest? behind).map fun c => (token, c)
    | none => none

/-- The chomping that a character of a block header asks for. -/
def chomping? : Option Char → Option Chomping
  | some '+' => some .keep
  | some '-' => some .strip
  | _ => none

/-- Reads the header of a block scalar behind its first character: how it ends and how far
it is indented, in either order. -/
def readBlockHeader? (c : Cursor) : Option (Chomping × Option Nat × Cursor) :=
  let digit? (c : Cursor) : Option Nat :=
    match c.rest with
    | d :: _ => if d.isDigit then some (d.toNat - 0x30) else none
    | [] => none
  let found :=
    match chomping? c.rest.head?, digit? c with
    | some chomping, _ =>
      match digit? c.next with
      | some n => (chomping, some n, c.skip 2)
      | none => (chomping, none, c.next)
    | none, some n =>
      match chomping? c.next.rest.head? with
      | some chomping => (chomping, some n, c.skip 2)
      | none => (.clip, some n, c.next)
    | none, none => (.clip, none, c)
  let (chomping, indent, behind) := found
  if indent = some 0 then none
  else (skipLineRest? behind).map fun c => (chomping, indent, c)

/-- Reads a block scalar behind its first character, inside a collection indented to
`parent` columns, if any. -/
def readBlockScalar? (literal : Bool) (parent : Option Nat) (c : Cursor) : Option ScalarEnd :=
  match readBlockHeader? c with
  | none => none
  | some (chomping, indent, c) =>
    let base := parent.getD 0
    let least := max 1 (match parent with | some n => n + 1 | none => 0)
    readBlock
      { literal, chomping, least
        indent := indent.map (base + ·) } c.place c.rest

end Yaml
end ClusterSync
