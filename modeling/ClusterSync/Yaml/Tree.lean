/-
# Trees and how they are laid out

A document is written in blocks, each entry on lines of its own. Entries of an inner
mapping stand two columns further in; those of a sequence below a key stand under the
key. Behind a dash, and behind the marks of a long key, an inner block begins on the same
line. What has no entries is written `[]` or `{}`.

A key that is no short text has a question mark in front, and its value follows on a
line of its own behind a colon.
-/

import ClusterSync.Yaml.TextLayout

namespace ClusterSync
namespace Yaml

/-- A document to be written. -/
inductive Tree
  /-- A number, a truth value or a null by the word for it. -/
  | word (s : String)
  | text (s : String)
  | sequence (items : List Tree)
  | mapping (entries : List (String × Tree))

namespace Tree

/-- A null. -/
def null : Tree := word "null"

/-- A truth value. -/
def bool (b : Bool) : Tree := word (if b then "true" else "false")

/-- A whole number. -/
def int (i : Int) : Tree := word (toString i)

/-- A number with a point. -/
def float (x : Binary64) : Tree := word (NumberLayout.document.render x)

/-- Blocks below one another at a column, where the first one begins on a line that has
already been moved there. -/
def stack (column : Nat) : List (List Char) → List Char
  | [] => []
  | [block] => block
  | block :: rest => block ++ spaces column ++ stack column rest

mutual

/-- A tree behind a mark that stands at a column. -/
def write (column : Nat) : Tree → List Char
  | word s => s.toList ++ ['\n']
  | text s => writeText (column + 2) s
  | sequence [] => "[]\n".toList
  | mapping [] => "\x7b\x7d\n".toList
  | sequence items => stack (column + 2) (writeItems (column + 2) items)
  | mapping entries => stack (column + 2) (writeEntries (column + 2) entries)

/-- A tree behind the colon of a short key that stands at a column. -/
def writeBelow (column : Nat) : Tree → List Char
  | sequence (item :: items) =>
    '\n' :: spaces column ++ stack column (writeItems column (item :: items))
  | mapping (entry :: entries) =>
    '\n' :: spaces (column + 2) ++ stack (column + 2) (writeEntries (column + 2) (entry :: entries))
  | word s => ' ' :: s.toList ++ ['\n']
  | text s => ' ' :: writeText (column + 2) s
  | sequence [] => " []\n".toList
  | mapping [] => " \x7b\x7d\n".toList

/-- The items of a sequence, each behind a dash at a column. -/
def writeItems (column : Nat) : List Tree → List (List Char)
  | [] => []
  | item :: items => ('-' :: ' ' :: write column item) :: writeItems column items

/-- The entries of a mapping whose keys stand at a column. -/
def writeEntries (column : Nat) : List (String × Tree) → List (List Char)
  | [] => []
  | (key, value) :: entries =>
    (if isShortKey key then
      (writeText (column + 2) key).dropLast ++ ':' :: writeBelow column value
    else
      '?' :: ' ' :: writeText (column + 2) key ++
        spaces column ++ ':' :: ' ' :: write column value) ::
      writeEntries column entries

end

/-- The document of a tree. -/
def document : Tree → String
  | word s => String.ofList (s.toList ++ ['\n'])
  | text s => String.ofList (writeText 2 s)
  | sequence [] => "[]\n"
  | mapping [] => "\x7b\x7d\n"
  | sequence items => String.ofList (stack 0 (writeItems 0 items))
  | mapping entries => String.ofList (stack 0 (writeEntries 0 entries))

end Tree
end Yaml
end ClusterSync
