/-
# Configurations in documents

A configuration is a mapping. `output_dir` must be there; what else is left out has its usual
value. It may have no other keys than these:

| key | value |
| --- | --- |
| `output_dir`, `output_format` | text |
| `clean` | truth value |
| `protected` | sequence of texts |
| `range` | mapping, or nothing |
| `sources` | sequence of entries |

The mapping under `range` may have other keys, which do not count. No key may be given
twice. Of several faults the one that comes first in the text counts, and one of a key that
is left out comes last.
-/

import ClusterSync.Config.Basic
import ClusterSync.Config.EntryReading
import ClusterSync.Files.Tree

namespace ClusterSync

open Yaml (Read Document Node Fault)

mutual

/-- Does the text go on behind a node, so that nothing in it is broken off? -/
def Yaml.Node.isWhole : Node → Bool
  | .scalar .. => true
  | .sequence _ items => allWhole items
  | .mapping _ entries => allEntriesWhole entries
  | .alias _ => true
  | .broken => false

/-- Is none of the nodes broken off? -/
def Yaml.Node.allWhole : List Node → Bool
  | [] => true
  | n :: rest => n.isWhole && allWhole rest

/-- Is no key or value of the entries broken off? -/
def Yaml.Node.allEntriesWhole : List (Node × Node) → Bool
  | [] => true
  | (k, v) :: rest => k.isWhole && v.isWhole && allEntriesWhole rest

end

/-- Reads the value of a key that may be given once. -/
def readOnce {α : Type} (name : String) (old : Option α) (value : Read α) : Read (Option α) :=
  if old.isSome then .error (.duplicateField name) else some <$> value

namespace Range

/-- Settings of a client as far as they have been read. -/
structure Settings.Draft where
  host : Option String := none
  maxChars : Option UInt64 := none
  maxPasses : Option UInt64 := none
  timeout : Option (Option UInt64) := none
  script : Option (Option String) := none

namespace Settings

/-- A whole number of 64 bits. -/
def readWord (d : Document) (n : Node) : Read UInt64 := UInt64.ofNat <$> d.asUnsigned n

/-- Reads one entry of the mapping. -/
def Draft.put (d : Document) (draft : Draft) (e : Node × Node) : Read Draft := do
  match ← d.asText e.1 with
  | "host" => return { draft with host := ← readOnce "host" draft.host (d.asText e.2) }
  | "max_chars" =>
    return { draft with maxChars := ← readOnce "max_chars" draft.maxChars (readWord d e.2) }
  | "max_collapse_iterations" =>
    return { draft with
      maxPasses := ← readOnce "max_collapse_iterations" draft.maxPasses (readWord d e.2) }
  | "timeout_secs" =>
    return { draft with
      timeout := ← readOnce "timeout_secs" draft.timeout (d.optional e.2 (readWord d)) }
  | "user_agent" =>
    return { draft with
      script := ← readOnce "user_agent" draft.script (d.optional e.2 d.asText) }
  | _ => if e.2.isWhole then return draft else throw .malformed

/-- The settings, with the usual values for what is left out. -/
def Draft.settings (draft : Draft) : Settings where
  host := draft.host.getD ({} : Settings).host
  maxChars := draft.maxChars.getD ({} : Settings).maxChars
  maxPasses := draft.maxPasses.getD ({} : Settings).maxPasses
  timeout := draft.timeout.getD none
  script := draft.script.getD none

/-- Settings in a document. -/
def read (d : Document) (n : Node) : Read Settings := do
  let draft ← (← d.asMapping n).foldlM (Draft.put d) {}
  return draft.settings

end Settings
end Range

namespace Config

/-- The keys of a configuration. -/
def keys : List String :=
  ["output_dir", "output_format", "clean", "protected", "range", "sources"]

/-- A configuration as far as it has been read. -/
structure Draft where
  directory : Option String := none
  format : Option String := none
  clean : Option Bool := none
  kept : Option (List String) := none
  range : Option (Option Range.Settings) := none
  sources : Option (List SourceEntry) := none

/-- How deep an entry may be nested inside a configuration. -/
def entryDepth : Nat := SourceEntry.maxDepth - 2

/-- Entries in a document. -/
def readEntries (d : Document) : List Node → Nat → Read (List SourceEntry)
  | [], _ => .ok []
  | n :: rest, budget => do
    let (entry, budget) ← SourceEntry.read d entryDepth n budget
    return entry :: (← readEntries d rest budget)

/-- Reads one entry of the mapping. -/
def Draft.put (d : Document) (draft : Draft) (e : Node × Node) : Read Draft := do
  match ← d.asText e.1 with
  | "output_dir" =>
    return { draft with directory := ← readOnce "output_dir" draft.directory (d.asText e.2) }
  | "output_format" =>
    return { draft with format := ← readOnce "output_format" draft.format (d.asText e.2) }
  | "clean" => return { draft with clean := ← readOnce "clean" draft.clean (d.asBool e.2) }
  | "protected" =>
    let texts : Read (List String) := do (← d.asSequence e.2).mapM d.asText
    return { draft with kept := ← readOnce "protected" draft.kept texts }
  | "range" =>
    return { draft with
      range := ← readOnce "range" draft.range (d.optional e.2 (Range.Settings.read d)) }
  | "sources" =>
    let entries : Read (List SourceEntry) := do readEntries d (← d.asSequence e.2) d.budget
    return { draft with sources := ← readOnce "sources" draft.sources entries }
  | key => throw (.unknownField key keys)

/-- The configuration, with the usual values for what is left out. -/
def Draft.config (draft : Draft) : Read Config :=
  match draft.directory with
  | none => .error (.missingField "output_dir")
  | some directory =>
    .ok {
      directory
      format := draft.format.getD "yaml"
      clean := draft.clean.getD true
      kept := draft.kept.getD []
      range := draft.range.getD none
      sources := draft.sources.getD [] }

/-- A configuration in a document. -/
def read (d : Document) (root : Option Node) : Read Config := do
  let entries ←
    match root with
    | some n => d.asMapping n
    | none => pure []
  (← entries.foldlM (Draft.put d) {}).config

/-- The configuration that a text is a document of, if it is sound. -/
def ofText (text : String) : Except ConfigFault Config := do
  let c ← (Document.readWhole text read).mapError .yaml
  c.check
  return c

/-- The configuration in the file that a path leads to. -/
def ofFile (tree : FileTree) (path : String) : Except ConfigFault Config := do
  ofText (← (tree.readText [] path).mapError .io)

end Config
end ClusterSync
