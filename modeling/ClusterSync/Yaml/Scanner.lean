/-
# From text to tokens

Two things make the tokens of a text depend on more than the characters at hand.

**Indentation.** Outside flow collections a column deeper than the current one begins
a block collection, and the first token at a lesser column ends it.

**Simple keys.** Whether a text is a key shows only at the colon behind it. So each
token that may be one is remembered, one per flow level; when the colon comes on the same
line and within 1024 characters, the token `key` is put in front of it. Where a key has
to stand, at the left edge of a block mapping, a candidate that finds no colon is an
error.

A text that breaks these rules yields the tokens up to the place where reading gave up;
those from the earliest open candidate on are not known to be keys or values and
are left out.
-/

import ClusterSync.Yaml.Marks

namespace ClusterSync
namespace Yaml

/-- A token that may turn out to be a key. -/
structure Candidate where
  /-- Does something else at this place make no sense? -/
  required : Bool
  /-- How many tokens stand before it. -/
  number : Nat
  place : Place

/-- Is the candidate out of reach of a colon at this place? -/
def Candidate.isStale (k : Candidate) (p : Place) : Bool :=
  k.place.line < p.line || k.place.index + 1024 < p.index

/-- A scanner at work. -/
structure Scanner where
  cursor : Cursor
  /-- The tokens so far, last one first. -/
  tokens : List Token := []
  /-- The columns of the open block collections, innermost first. -/
  indents : List Nat := []
  /-- How many flow collections are open. -/
  flow : Nat := 0
  /-- May a key begin here? -/
  keyAllowed : Bool := true
  /-- The candidates, innermost flow level first; the last one is that of no level. -/
  candidates : List (Option Candidate) := [none]

namespace Scanner

/-- Is the scanner inside a flow collection? -/
def inFlow (s : Scanner) : Bool := s.flow != 0

/-- The column of the innermost block collection. -/
def indent? (s : Scanner) : Option Nat := s.indents.head?

/-- Is a column deeper than the innermost block collection? -/
def isDeeper (s : Scanner) (column : Nat) : Bool :=
  match s.indents with
  | [] => true
  | n :: _ => n < column

/-- The scanner with one more token. -/
def push (s : Scanner) (t : Token) : Scanner := { s with tokens := t :: s.tokens }

/-- The scanner with one more token and the text behind it. -/
def pushAt (s : Scanner) (t : Token) (c : Cursor) : Scanner :=
  { s with tokens := t :: s.tokens, cursor := c }

/-- The scanner with a token put in behind the first `number` ones. -/
def insert (s : Scanner) (number : Nat) (t : Token) : Scanner :=
  { s with tokens := s.tokens.insertIdx (s.tokens.length - number) t }

/-- The candidate of the innermost level. -/
def candidate? (s : Scanner) : Option Candidate := s.candidates.head?.join

/-- The scanner with another candidate for the innermost level. -/
def setCandidate (s : Scanner) (k : Option Candidate) : Scanner :=
  { s with candidates := k :: s.candidates.drop 1 }

/-- Gives up the candidate of the innermost level, unless it had to be a key. -/
def dropCandidate? (s : Scanner) : Option Scanner :=
  if s.candidate?.any (·.required) then none else some (s.setCandidate none)

/-- Gives up all candidates that are out of reach, unless one had to be a key. -/
def dropStale? (s : Scanner) : Option Scanner :=
  let stale (k : Option Candidate) : Bool := k.any (·.isStale s.cursor.place)
  if s.candidates.any fun k => stale k && k.any (·.required) then none
  else some { s with candidates := s.candidates.map fun k => if stale k then none else k }

/-- Takes the next token for a candidate, if a key may begin here. -/
def saveCandidate? (s : Scanner) : Option Scanner :=
  if s.keyAllowed then
    let required := !s.inFlow && s.indent? == some s.cursor.column
    s.dropCandidate?.map (·.setCandidate (some ⟨required, s.tokens.length, s.cursor.place⟩))
  else some s

/-- Begins a block collection at a column, if it is deeper than the current one. The
token for it goes behind the first `number` ones. -/
def roll (s : Scanner) (column number : Nat) (t : Token) : Scanner :=
  if !s.inFlow && s.isDeeper column then
    { s with indents := column :: s.indents }.insert number t
  else s

/-- Ends the block collections that are deeper than a column. -/
def unrollTo (column : Option Nat) (tokens : List Token) : List Nat → List Token × List Nat
  | [] => (tokens, [])
  | n :: rest =>
    if column.all (· < n) then unrollTo column (.blockEnd :: tokens) rest
    else (tokens, n :: rest)

/-- Ends the block collections that are deeper than a column, or all of them. -/
def unroll (s : Scanner) (column : Option Nat) : Scanner :=
  if s.inFlow then s
  else
    let (tokens, indents) := unrollTo column s.tokens s.indents
    { s with tokens, indents }

/-- Goes on to the next token, over white space, comments and line ends. A tab counts as
white space only where no key may begin. After a line end one may. A mark of the byte
order in front of the whole text is white space, and takes up a column like any other. -/
def skipGap (flow keyAllowed comment : Bool) (place : Place) : List Char → Cursor × Bool
  | [] => (⟨[], place⟩, keyAllowed)
  | '\r' :: '\n' :: rest => skipGap flow (keyAllowed || !flow) false (place.nextLine 2) rest
  | c :: rest =>
    if isBreak c then skipGap flow (keyAllowed || !flow) false place.nextLine rest
    else if comment || c == ' ' || (c == '\t' && (flow || !keyAllowed)) ||
        (c == '\uFEFF' && place.index == 0) then
      skipGap flow keyAllowed comment place.move rest
    else if c == '#' then skipGap flow keyAllowed true place.move rest
    else (⟨c :: rest, place⟩, keyAllowed)

/-- Reads a mark that stands between documents. -/
def documentMark? (s : Scanner) (t : Token) : Option Scanner :=
  ((s.unroll none).dropCandidate?).map fun s =>
    { s.pushAt t (s.cursor.skip 3) with keyAllowed := false }

/-- Reads a directive. -/
def directive? (s : Scanner) : Option Scanner := do
  let s ← (s.unroll none).dropCandidate?
  let (t, c) ← readDirective? s.cursor.next
  return { s.pushAt t c with keyAllowed := false }

/-- Begins a flow collection, which may itself be a key. -/
def openFlow? (s : Scanner) (t : Token) : Option Scanner :=
  s.saveCandidate?.map fun s =>
    { s.pushAt t s.cursor.next with
      flow := s.flow + 1, keyAllowed := true, candidates := none :: s.candidates }

/-- Ends a flow collection. -/
def closeFlow? (s : Scanner) (t : Token) : Option Scanner :=
  s.dropCandidate?.map fun s =>
    { s.pushAt t s.cursor.next with
      flow := s.flow - 1, keyAllowed := false
      candidates := if s.inFlow then s.candidates.drop 1 else s.candidates }

/-- Reads a comma of a flow collection. -/
def flowEntry? (s : Scanner) : Option Scanner :=
  s.dropCandidate?.map fun s =>
    { s.pushAt .flowEntry s.cursor.next with keyAllowed := true }

/-- Reads the dash of a list entry. -/
def blockEntry? (s : Scanner) : Option Scanner :=
  if !s.inFlow && !s.keyAllowed then none
  else
    (s.roll s.cursor.column s.tokens.length .blockSequenceStart).dropCandidate?.map fun s =>
      { s.pushAt .blockEntry s.cursor.next with keyAllowed := true }

/-- Reads the question mark of a key. -/
def key? (s : Scanner) : Option Scanner :=
  if !s.inFlow && !s.keyAllowed then none
  else
    (s.roll s.cursor.column s.tokens.length .blockMappingStart).dropCandidate?.map fun s =>
      { s.pushAt .key s.cursor.next with keyAllowed := !s.inFlow }

/-- Reads the colon in front of a value. -/
def value? (s : Scanner) : Option Scanner :=
  match s.candidate? with
  | some k =>
    let s := ((s.insert k.number .key).roll k.place.column k.number .blockMappingStart)
    some { (s.setCandidate none).pushAt .value s.cursor.next with keyAllowed := false }
  | none =>
    if !s.inFlow && !s.keyAllowed then none
    else
      let s := s.roll s.cursor.column s.tokens.length .blockMappingStart
      some { s.pushAt .value s.cursor.next with keyAllowed := !s.inFlow }

/-- Reads an anchor or an alias behind its first character. -/
def name? (s : Scanner) (token : String → Token) : Option Scanner := do
  let s ← s.saveCandidate?
  let (name, c) ← readName? s.cursor.next
  return { s.pushAt (token name) c with keyAllowed := false }

/-- Reads a tag. -/
def tag? (s : Scanner) : Option Scanner := do
  let s ← s.saveCandidate?
  let (t, c) ← readTag? s.inFlow s.cursor
  return { s.pushAt t c with keyAllowed := false }

/-- Reads a block scalar. -/
def blockScalar? (s : Scanner) (style : Style) : Option Scanner := do
  let s ← s.dropCandidate?
  let r ← readBlockScalar? (style == .literal) s.indent? s.cursor.next
  return { s.pushAt (.scalar style (String.ofList r.text)) r.cursor with keyAllowed := true }

/-- Reads a scalar in quotes. -/
def quoted? (s : Scanner) (style : Style) : Option Scanner := do
  let s ← s.saveCandidate?
  let c := s.cursor.next
  let r ← if style == .single then readSingle [] {} c.place c.rest
    else readDouble [] {} .text c.place c.rest
  return { s.pushAt (.scalar style (String.ofList r.text)) r.cursor with keyAllowed := false }

/-- Reads a plain scalar. A line end behind it lets a key begin. -/
def plain? (s : Scanner) : Option Scanner := do
  let s ← s.saveCandidate?
  let indent := match s.indent? with | some n => n + 1 | none => 0
  let r ← readPlain s.inFlow indent [] {} s.cursor.place s.cursor.rest
  return { s.pushAt (.scalar .plain (String.ofList r.text)) r.cursor with
    keyAllowed := r.brokeLine }

/-- Characters that begin no plain scalar. -/
def isIndicator (c : Char) : Bool :=
  ['-', '?', ':', ',', '[', ']', '{', '}', '#', '&', '*', '!', '|', '>', '\'', '"', '%', '@',
    '`'].contains c

/-- May a plain scalar begin with these characters? -/
def beginsPlain (flow : Bool) : List Char → Bool
  | [] => false
  | c :: rest =>
    (!isSpace c && !isBreak c && !isIndicator c) ||
      (c == '-' && !rest.head?.any isSpace) ||
      (!flow && (c == '?' || c == ':') && !atGap rest)

/-- Reads the token that begins with this character, which is not the end of the text. -/
def token? (s : Scanner) (c : Char) (rest : List Char) : Option Scanner :=
  let column := s.cursor.column
  if column = 0 && c == '%' then s.directive?
  else if column = 0 && atDocumentMark (c :: rest) then
    s.documentMark? (if c == '-' then .documentStart else .documentEnd)
  else if c == '[' then s.openFlow? .flowSequenceStart
  else if c == '{' then s.openFlow? .flowMappingStart
  else if c == ']' then s.closeFlow? .flowSequenceEnd
  else if c == '}' then s.closeFlow? .flowMappingEnd
  else if c == ',' then s.flowEntry?
  else if c == '-' && atGap rest then s.blockEntry?
  else if c == '?' && (s.inFlow || atGap rest) then s.key?
  else if c == ':' && (s.inFlow || atGap rest) then s.value?
  else if c == '*' then s.name? .alias
  else if c == '&' then s.name? .anchor
  else if c == '!' then s.tag?
  else if c == '|' && !s.inFlow then s.blockScalar? .literal
  else if c == '>' && !s.inFlow then s.blockScalar? .folded
  else if c == '\'' then s.quoted? .single
  else if c == '"' then s.quoted? .double
  else if beginsPlain s.inFlow (c :: rest) then s.plain?
  else none

/-- The scanner in front of the next token, with the block collections ended that its
column ends. -/
def settle? (s : Scanner) : Option Scanner :=
  let (cursor, keyAllowed) :=
    skipGap s.inFlow s.keyAllowed false s.cursor.place s.cursor.rest
  let ahead : Scanner := { s with cursor, keyAllowed }
  ahead.dropStale?.map fun (ahead : Scanner) => ahead.unroll (some ahead.cursor.column)

/-- The tokens that are certain when reading gives up, in order. -/
def certain (s : Scanner) : List Token :=
  let live := s.candidates.filterMap fun k => k.filter (!·.isStale s.cursor.place)
  s.tokens.reverse.take ((live.map (·.number)).foldl min s.tokens.length)

/-- The tokens of the text from here on, and whether it was read to its end. Every token
takes a character at least, so one more step than there are characters is enough. -/
def run (s : Scanner) : Nat → List Token × Bool
  | 0 => (s.certain, false)
  | steps + 1 =>
    match s.settle? with
    | none => (s.certain, false)
    | some ahead =>
      match ahead.cursor.rest with
      | [] =>
        match (ahead.unroll none).dropCandidate? with
        | some ahead => ((ahead.push .streamEnd).tokens.reverse, true)
        | none => (s.certain, false)
      | c :: rest =>
        match ahead.token? c rest with
        | some next => next.run steps
        | none => (s.certain, false)

end Scanner

/-- May the character stand in a document? -/
def isReadable (c : Char) : Bool :=
  let n := c.toNat
  c == '\t' || c == '\n' || c == '\r' || (0x20 ≤ n && n ≤ 0x7E) || n == 0x85 ||
    (0xA0 ≤ n && n ≤ 0xD7FF) || (0xE000 ≤ n && n ≤ 0xFFFD) || 0x10000 ≤ n

/-- The tokens of a text, and whether it was read to its end. A character that may not
stand in a document spoils the whole text. -/
def tokensOf (text : List Char) : List Token × Bool :=
  if text.all isReadable then ({ cursor := ⟨text, {}⟩ : Scanner }).run (text.length + 1)
  else ([], false)

end Yaml
end ClusterSync
