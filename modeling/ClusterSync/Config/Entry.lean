/-
# The entries of a configuration

An entry says where clusters come from, and how they meet those of the entries before it:

| type | keys |
| --- | --- |
| `local` | `dir` |
| `git` | `repo`, `dir`, `branch` |
| `svn` | `repo`, `dir` |
| `http_index` | `url`, `filter`, `timeout_secs` |
| `version` | |
| `reverse_index` | |

Each may have a `policy` and a `name` as well.
-/

import ClusterSync.Cluster.Policy

namespace ClusterSync

/-- The types of entries. -/
inductive EntryType
  | directory
  | git
  | svn
  | listing
  | stamp
  | membership
deriving DecidableEq

/-- What a key of an entry may hold. -/
inductive FieldKind
  | text
  /-- A text or nothing. -/
  | optionalText
  /-- A whole number of 64 bits or nothing. -/
  | optionalWord
deriving DecidableEq

namespace EntryType

/-- All types. -/
def all : List EntryType := [directory, git, svn, listing, stamp, membership]

/-- The name of a type. -/
def name : EntryType → String
  | directory => "local"
  | git => "git"
  | svn => "svn"
  | listing => "http_index"
  | stamp => "version"
  | membership => "reverse_index"

/-- The type of a name. -/
def ofName? (s : String) : Option EntryType := all.find? (·.name == s)

/-- The keys that an entry of this type may have besides `type`, `policy` and `name`. -/
def fields : EntryType → List (String × FieldKind)
  | directory => [("dir", .text)]
  | git => [("repo", .text), ("dir", .text), ("branch", .optionalText)]
  | svn => [("repo", .text), ("dir", .text)]
  | listing => [("url", .text), ("filter", .text), ("timeout_secs", .optionalWord)]
  | stamp | membership => []

/-- The names of those keys. -/
def fieldNames (t : EntryType) : List String := t.fields.map (·.1)

end EntryType

/-- Where the clusters of an entry come from. -/
inductive Origin
  | directory (path : String)
  | git (repo directory : String) (branch : Option String)
  | svn (repo directory : String)
  | listing (url filter : String) (timeout : Option UInt64)
  | stamp
  | membership
deriving DecidableEq

/-- The type of the entry that tells it. -/
def Origin.type : Origin → EntryType
  | directory _ => .directory
  | git .. => .git
  | svn .. => .svn
  | listing .. => .listing
  | stamp => .stamp
  | membership => .membership

/-- An entry of a configuration. -/
structure SourceEntry where
  origin : Origin
  policy : Policy := .merge
  name : Option String := none
deriving DecidableEq

/-- What an entry is called: its name, or else its type. -/
def SourceEntry.label (e : SourceEntry) : String := e.name.getD e.origin.type.name

/-- What stands under one key of an entry. -/
inductive Field
  | text (s : String)
  | number (w : UInt64)
deriving DecidableEq

/-- A key with what stands under it, if anything does. -/
def Field.optional {α : Type} (key : String) (f : α → Field) (value : Option α) :
    List (String × Field) :=
  (value.map fun a => (key, f a)).toList

/-- The keys of an entry that tell an origin, without its type. -/
def Origin.fields : Origin → List (String × Field)
  | .directory path => [("dir", .text path)]
  | .git repo path branch =>
    [("repo", .text repo), ("dir", .text path)] ++ Field.optional "branch" .text branch
  | .svn repo path => [("repo", .text repo), ("dir", .text path)]
  | .listing url filter timeout =>
    [("url", .text url), ("filter", .text filter)] ++
      Field.optional "timeout_secs" .number timeout
  | .stamp | .membership => []

/-- The keys of an entry in the order in which they are written. A name, a branch and a limit
on the time are written if there is one, and all the rest always. -/
def SourceEntry.fields (e : SourceEntry) : List (String × Field) :=
  [("policy", .text e.policy.name)] ++ Field.optional "name" .text e.name ++
    [("type", .text e.origin.type.name)] ++ e.origin.fields

end ClusterSync
