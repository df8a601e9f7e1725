/-
# Configurations as documents

Every key that has a value is written, also a usual one. Keys under which nothing stands
are left out.
-/

import ClusterSync.Cluster.Writing
import ClusterSync.Config.Basic

namespace ClusterSync

open Yaml (Tree)

/-- A word in a document. -/
def Yaml.Tree.unsigned (w : UInt64) : Tree := .int w.toNat

/-- What stands under one key of an entry, in a document. -/
def Field.tree : Field → Tree
  | .text s => .text s
  | .number w => .unsigned w

/-- Keys with what stands under them, in a document. -/
def Field.mapping (fields : List (String × Field)) : List (String × Tree) :=
  fields.map fun f => (f.1, f.2.tree)

/-- The keys of the settings of a range client. -/
def Range.Settings.fields (s : Range.Settings) : List (String × Field) :=
  [("host", .text s.host), ("max_chars", .number s.maxChars),
      ("max_collapse_iterations", .number s.maxPasses)] ++
    Field.optional "timeout_secs" .number s.timeout ++
    Field.optional "user_agent" .text s.script

/-- The settings of a range client in a document. -/
def Range.Settings.tree (s : Range.Settings) : Tree := .mapping (Field.mapping s.fields)

/-- An entry of a configuration in a document. -/
def SourceEntry.tree (e : SourceEntry) : Tree := .mapping (Field.mapping e.fields)

/-- The keys of a configuration with what stands under them. -/
def Config.entries (c : Config) : List (String × Tree) :=
  [("output_dir", .text c.directory), ("output_format", .text c.format),
      ("clean", .bool c.clean), ("protected", .sequence (c.kept.map .text))] ++
    (c.range.map fun s => ("range", s.tree)).toList ++
    [("sources", .sequence (c.sources.map SourceEntry.tree))]

/-- A configuration in a document. -/
def Config.tree (c : Config) : Tree := .mapping c.entries

/-- A configuration as a text. -/
def Config.text (c : Config) : String := c.tree.document

end ClusterSync
