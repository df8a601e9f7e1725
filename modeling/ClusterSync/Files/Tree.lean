/-
# Files, directories and links

A tree of files gives every place either nothing or an entry: a file with its bytes, a
directory, or a link with the path that it stands for. A place is the list of the names on
the way to it from the top, which is a directory itself.

A path is walked name by name. An empty name and `.` stay, `..` goes up, and a link is
followed where more names come behind it; at the end of the path it depends on what the
path is for. A path that does not begin with a slash begins at the top as well. The empty
path leads nowhere.

What an operation changes can be read off the table: writing and removing are `insert` and
`erase` at the place where the walk ends.
-/

import ClusterSync.Files.Error
import ClusterSync.Table
import ClusterSync.Text.Blank

namespace ClusterSync
namespace Files

/-- The names on the way to an entry. -/
abbrev Place := List String

-- Places are ordered and bytes are compared as in the core library, whatever else is in scope.
instance : LE Place := List.instLE

instance : Std.IsLinearOrder Place := inferInstance

instance : Std.LawfulOrderLT Place := inferInstance

instance decidableEqBytes : DecidableEq ByteArray := ByteArray.instDecidableEq

/-- What stands at a place. -/
inductive Entry
  | file (bytes : ByteArray)
  | directory
  | link (target : String)
deriving DecidableEq

/-- Does a file stand here, not a link to one? -/
def Entry.isFile : Entry → Bool
  | file _ => true
  | _ => false

/-- The names in a path. -/
def names (path : String) : List String :=
  (Text.splitOn '/' path.toList).map String.ofList

/-- A path continued by a name. A name that is a path from the top replaces it. -/
def join (path name : String) : String :=
  if name.startsWith "/" || path.isEmpty then name
  else if path.endsWith "/" then path ++ name
  else path ++ "/" ++ name

/-- Does a path stay below where it begins? -/
def staysBelow (path : String) : Bool :=
  !path.startsWith "/" && !(names path).contains ".."

/-- The most bytes that a name may have. -/
def maxName : Nat := 255

/-- How many links may be followed on one walk. -/
def maxLinks : Nat := 40

/-- The trouble with a name, if no entry may have it. -/
def nameError? (name : String) : Option OsError :=
  if name.toList.contains '\x00' then some .zeroByte
  else if maxName < Text.size name then some .nameTooLong
  else none

/-- Where a walk ends: a place in a directory, and what stands there. -/
structure Spot where
  place : Place
  entry : Option Entry

end Files

/-- Files by their places. The top is not listed. -/
abbrev FileTree := Table Files.Place Files.Entry

namespace FileTree

open Files

/-- Walks on from a directory. With `follow` a link at the end is followed too; so many
links may be followed. -/
def walk (tree : FileTree) (follow : Bool) (links : Nat) (here : Place) :
    List String → Except OsError Spot
  | [] => .ok ⟨here, some .directory⟩
  | name :: rest =>
    if name = "" ∨ name = "." then walk tree follow links here rest
    else if name = ".." then walk tree follow links here.dropLast rest
    else
      match nameError? name with
      | some e => .error e
      | none =>
        match tree.get? (here ++ [name]) with
        | some .directory => walk tree follow links (here ++ [name]) rest
        | some (.link target) =>
          if rest.isEmpty && !follow then .ok ⟨here ++ [name], some (.link target)⟩
          else
            match links with
            | 0 => .error .tooManyLinks
            | links + 1 =>
              walk tree follow links (if target.startsWith "/" then [] else here)
                (names target ++ rest)
        | some (.file bytes) =>
          if rest.isEmpty then .ok ⟨here ++ [name], some (.file bytes)⟩ else .error .notDirectory
        | none => if rest.isEmpty then .ok ⟨here ++ [name], none⟩ else .error .notFound
termination_by rest => (links, rest.length)

/-- Where a path ends that begins in a directory. -/
def locate (tree : FileTree) (follow : Bool) (dir : Place) (path : String) :
    Except OsError Spot :=
  if path.isEmpty then .error .notFound
  else if path.toList.contains '\x00' then .error .zeroByte
  else tree.walk follow maxLinks (if path.startsWith "/" then [] else dir) (names path)

/-- The place of the directory that a path leads to. -/
def directory? (tree : FileTree) (path : String) : Option Place :=
  match tree.locate true [] path with
  | .ok ⟨place, some .directory⟩ => some place
  | _ => none

/-- The entries of a directory by name. -/
def list (tree : FileTree) (dir : Place) : List (String × Entry) :=
  tree.entries.filterMap fun e =>
    match e.1.getLast? with
    | some name => if e.1.dropLast = dir then some (name, e.2) else none
    | none => none

/-- The bytes of the file that a path leads to. -/
def read (tree : FileTree) (dir : Place) (path : String) : Except OsError ByteArray := do
  match (← tree.locate true dir path).entry with
  | some (.file bytes) => return bytes
  | some _ => throw .isDirectory
  | none => throw .notFound

/-- The text of the file that a path leads to. -/
def readText (tree : FileTree) (dir : Place) (path : String) : Except OsError String := do
  match String.fromUTF8? (← tree.read dir path) with
  | some text => return text
  | none => throw .notText

/-- The bytes of the file that a path leads to, for a copy of it. -/
def readRegular (tree : FileTree) (dir : Place) (path : String) : Except OsError ByteArray :=
  match tree.read dir path with
  | .error .isDirectory => .error .notRegular
  | r => r

/-- Does a path lead to anything? -/
def leadsSomewhere (tree : FileTree) (dir : Place) (path : String) : Bool :=
  match tree.locate true dir path with
  | .ok spot => spot.entry.isSome
  | .error _ => false

/-- Writes a file where a path leads, in place of a file that is there. -/
def write (tree : FileTree) (dir : Place) (path : String) (bytes : ByteArray) :
    Except OsError FileTree := do
  let spot ← tree.locate true dir path
  match spot.entry with
  | some .directory => throw .isDirectory
  | _ => return tree.insert spot.place (.file bytes)

/-- Takes away the file or link at the end of a path. -/
def remove (tree : FileTree) (dir : Place) (path : String) : Except OsError FileTree := do
  let spot ← tree.locate false dir path
  match spot.entry with
  | some .directory => throw .isDirectory
  | some _ => return tree.erase spot.place
  | none => throw .notFound

/-- Moves the file or link at the end of one path to the end of another, in place of a
file or link that is there. -/
def rename (tree : FileTree) (dir : Place) (path target : String) : Except OsError FileTree := do
  let source ← tree.locate false dir path
  let target ← tree.locate false dir target
  match source.entry, target.entry with
  | none, _ => throw .notFound
  | some _, some .directory => throw .isDirectory
  | some entry, _ => return (tree.erase source.place).insert target.place entry

end FileTree
end ClusterSync
