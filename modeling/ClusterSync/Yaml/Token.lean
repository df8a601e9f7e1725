/-
# Tokens of YAML documents

A document is read as tokens before it is read as a tree. Besides the marks that stand in
the text there are tokens for what indentation says: where a block collection begins
and ends, and that a text turned out to be a key.

Lines end with a line feed, a carriage return, both, or one of `U+0085`, `U+2028`,
`U+2029`. Inside scalars the last two are kept and the others are read as a line feed.
-/

import ClusterSync.Text.Blank

namespace ClusterSync
namespace Yaml

/-- How a scalar is written. -/
inductive Style
  | plain
  | single
  | double
  | literal
  | folded
deriving DecidableEq

/-- A token of a document. -/
inductive Token
  | version (major minor : Nat)
  | tagDirective (handle start : String)
  | documentStart
  | documentEnd
  | blockSequenceStart
  | blockMappingStart
  | blockEnd
  | flowSequenceStart
  | flowSequenceEnd
  | flowMappingStart
  | flowMappingEnd
  | blockEntry
  | flowEntry
  | key
  | value
  | alias (name : String)
  | anchor (name : String)
  | tag (handle suffix : String)
  | scalar (style : Style) (text : String)
  | streamEnd
deriving DecidableEq

/-- Does the character end a line? -/
def isBreak (c : Char) : Bool :=
  c == '\n' || c == '\r' || c == '\u0085' || c == '\u2028' || c == '\u2029'

/-- Is it a space or a tab? -/
def isSpace (c : Char) : Bool := c == ' ' || c == '\t'

/-- Does the text end here, or go on with a space, a tab or a line end? -/
def atGap : List Char → Bool
  | [] => true
  | c :: _ => isSpace c || isBreak c

/-- Does the text end here, or the line? -/
def atLineEnd : List Char → Bool
  | [] => true
  | c :: _ => isBreak c

/-- How a line end is kept inside a scalar. -/
def keptBreak (c : Char) : Char :=
  if c == '\u2028' || c == '\u2029' then c else '\n'

/-- Letters, digits, `_` and `-` of ASCII, which names are made of. -/
def isNameChar (c : Char) : Bool := c.isAlphanum || c == '_' || c == '-'

/-- Does a document mark, three dashes or three points, stand here? -/
def atDocumentMark : List Char → Bool
  | '-' :: '-' :: '-' :: rest => atGap rest
  | '.' :: '.' :: '.' :: rest => atGap rest
  | _ => false

/-- A place in a text. -/
structure Place where
  index : Nat := 0
  line : Nat := 0
  column : Nat := 0
deriving DecidableEq

namespace Place

/-- The place after so many characters of the same line. -/
def move (p : Place) (n : Nat := 1) : Place :=
  { p with index := p.index + n, column := p.column + n }

/-- The place after a line end of so many characters. -/
def nextLine (p : Place) (n : Nat := 1) : Place :=
  { index := p.index + n, line := p.line + 1, column := 0 }

end Place

/-- The text from a place on. -/
structure Cursor where
  rest : List Char
  place : Place := {}

namespace Cursor

/-- One character further. -/
def next (c : Cursor) : Cursor := ⟨c.rest.drop 1, c.place.move⟩

/-- So many characters further, within one line. -/
def skip (c : Cursor) (n : Nat) : Cursor := ⟨c.rest.drop n, c.place.move n⟩

/-- Behind the characters of a class; none of them ends a line. -/
def skipWhile (p : Char → Bool) (c : Cursor) : Cursor :=
  let run := c.rest.takeWhile p
  ⟨c.rest.drop run.length, c.place.move run.length⟩

/-- Behind the line end that stands here, if one does. -/
def skipBreak : Cursor → Cursor
  | ⟨'\r' :: '\n' :: rest, place⟩ => ⟨rest, place.nextLine 2⟩
  | ⟨c :: rest, place⟩ => if isBreak c then ⟨rest, place.nextLine⟩ else ⟨c :: rest, place⟩
  | c => c

/-- The column of the place. -/
def column (c : Cursor) : Nat := c.place.column

end Cursor
end Yaml
end ClusterSync
