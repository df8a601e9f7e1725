/-
# Values and keys as the range server reads them

To the range server parentheses, white space and slashes mean something. A value that
has them is wrapped in `q(...)`, which makes it a literal:

1. A value with parentheses that is not wrapped yet is wrapped, with a backslash in
   front of each parenthesis.
2. A value with white space or a slash that is not wrapped yet is wrapped as it is,
   unless it begins with a difference such as `%a - %b`.

A value is wrapped if it begins with `q(` and ends with `)`.

In keys, white space and semicolons become underscores. Where two keys become one,
the value of the greater one counts. Numbers, truth values and nulls stay as they are.
-/

import ClusterSync.Cluster.Value
import ClusterSync.Text.Blank

namespace ClusterSync
namespace Normal

/-- Is it a parenthesis? -/
def isParen (c : Char) : Bool := c == '(' || c == ')'

/-- Does the text begin with `q(` and end with `)`? -/
def isQuoted : List Char → Bool
  | 'q' :: '(' :: body => body.getLast? == some ')'
  | _ => false

/-- The text with a backslash in front of each parenthesis. -/
def escape (cs : List Char) : List Char :=
  cs.flatMap fun c => if isParen c then ['\\', c] else [c]

/-- The text as a literal. -/
def quote (cs : List Char) : List Char := 'q' :: '(' :: cs ++ [')']

/-- Does the text begin with a difference: a run without white space, a minus between
two spaces, and something that is not white space? -/
def startsWithDifference (cs : List Char) : Bool :=
  !(cs.takeWhile (!Text.isBlank ·)).isEmpty &&
    match cs.dropWhile (!Text.isBlank ·) with
    | ' ' :: '-' :: ' ' :: c :: _ => !Text.isBlank c
    | _ => false

/-- Has the text a character that the server would not take for part of a word? -/
def needsQuote (cs : List Char) : Bool := cs.any fun c => Text.isBlank c || c == '/'

/-- The characters of a value as published. -/
def valueChars (cs : List Char) : List Char :=
  let cs := if cs.any isParen && !isQuoted cs then quote (escape cs) else cs
  if needsQuote cs && !isQuoted cs && !startsWithDifference cs then quote cs else cs

/-- A value as published. -/
def ofText (s : String) : String := String.ofList (valueChars s.toList)

/-- May the character not stand in a key? -/
def isKeyBreak (c : Char) : Bool := c == ';' || Text.isBlank c

/-- A key as published. -/
def ofKey (s : String) : String :=
  String.ofList (s.toList.map fun c => if isKeyBreak c then '_' else c)

/-- A scalar as published: only texts change. -/
def ofScalar : Scalar → Scalar
  | .text s => .text (ofText s)
  | s => s

/-- An attribute as published. -/
def ofAttribute : Attribute → Attribute
  | .one s => .one (ofScalar s)
  | .many items => .many (items.map ofScalar)

/-- The attributes of a cluster as published. -/
def ofAttributes (data : Attributes) : Attributes :=
  .ofList (data.entries.map fun e => (ofKey e.1, ofAttribute e.2))

/-- The clusters of a set as published. -/
def ofSet (set : ClusterSet) : ClusterSet := set.mapValues ofAttributes

/-- The attributes of a cluster as published, with an empty `CLUSTER` if they had none. -/
def published (data : Attributes) : Attributes :=
  let data := ofAttributes data
  if data.contains clusterKey then data else data.insert clusterKey .blank

end Normal
end ClusterSync
