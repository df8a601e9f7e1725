/-
# Publishing a cluster set

A set is published into a directory in three steps.

1. The bodies of the clusters are collected. A cluster whose name is not plain, or too long
   for a file, is reported.
2. Each file that has been collected replaces the one in the directory
   (`Publish.Progress.replaceIn`), in byte order of names. One that cannot be replaced is
   reported, and the others still go out.
3. If the writer cleans up, the cluster files that were there before and were not
   collected are deleted. Protected ones and those that have been reported stay.

Nothing is published into what is no directory. Before the second step both directories are
listed, and if one cannot be the publish ends there.
-/

import ClusterSync.Cluster.Writing
import ClusterSync.Publish.Replace

namespace ClusterSync
namespace Publish

open Files (Place OsError)

/-- The formats of published files. -/
inductive Format
  | yaml
deriving DecidableEq

/-- The name of a format. -/
def Format.name : Format → String
  | yaml => "yaml"

/-- The format of a name. -/
def Format.ofName (s : String) : Except Failure Format :=
  if s = Format.yaml.name then .ok .yaml else .error (.unsupportedFormat s)

/-- Where and how sets are published. -/
structure Writer where
  directory : String
  format : Format := .yaml
  /-- Are files deleted whose clusters are gone? -/
  clean : Bool := true
  /-- The files that are never deleted. -/
  isProtected : String → Bool := fun _ => false

/-- What has been done to which files. -/
structure Report where
  written : List String := []
  failed : List (String × Failure) := []
  deleted : List String := []
  /-- Files that would have been deleted if they were not protected. -/
  kept : List String := []
  /-- Files that could not be deleted. -/
  failedDeletes : List (String × Failure) := []

/-- Has everything been done that was to be done? -/
def Report.isClean (r : Report) : Bool := r.failed.isEmpty && r.failedDeletes.isEmpty

/-- Files that have been collected, with their bytes. -/
abbrev Staged := Table String ByteArray

/-- Collects one cluster. A write that breaks off may leave part of the body. -/
def stageOne (faults : Faults) (scratch : String) (staged : Staged) (cluster : String)
    (data : Attributes) : Staged × Option Failure :=
  let file := ClusterFile.name cluster
  if !ClusterFile.isPlain cluster then
    (staged, some (.publish (Files.join scratch cluster) .notPlainName))
  else
    match Files.nameError? file with
    | some e => (staged, some (.io e))
    | none =>
      let body := (Attributes.body data).toUTF8
      match faults.stage file with
      | none => (staged.insert file body, none)
      | some ⟨none, e⟩ => (staged, some (.io e))
      | some ⟨some n, e⟩ => (staged.insert file (firstBytes body n), some (.io e))

/-- Collects clusters in turn, and reports those that cannot be. -/
def stageAll (faults : Faults) (scratch : String) :
    Staged → List (String × Attributes) → Staged × List (String × Failure)
  | staged, [] => (staged, [])
  | staged, (cluster, data) :: rest =>
    let (staged, failure) := stageOne faults scratch staged cluster data
    let (staged, failed) := stageAll faults scratch staged rest
    (staged, (failure.map (ClusterFile.name cluster, ·)).toList ++ failed)

/-- The cluster files that have been collected. -/
def stagedFiles (staged : Staged) : Staged := staged.filter fun file _ => ClusterFile.isName file

/-- The cluster files in a directory. -/
def clusterFiles (tree : FileTree) (dir : Place) : List String :=
  Text.sort <| (tree.list dir).filterMap fun e =>
    if e.2.isFile && ClusterFile.isName e.1 then some e.1 else none

/-- Replaces files in turn, and says which could be. -/
def replaceAll (faults : Faults) (directory : String) :
    Progress → List (String × ByteArray) → Progress × List String × List (String × Failure)
  | p, [] => (p, [], [])
  | p, (file, bytes) :: rest =>
    let (p, result) := p.replaceIn directory faults file bytes
    let (p, written, failed) := replaceAll faults directory p rest
    match result with
    | .ok () => (p, file :: written, failed)
    | .error e => (p, written, (file, .publish (Files.join directory file) e) :: failed)

/-- Deletes files in turn, and reports those that could not be. -/
def deleteAll (faults : Faults) (directory : String) :
    Progress → List String → Progress × List String × List (String × Failure)
  | p, [] => (p, [], [])
  | p, file :: rest =>
    let (p, result) := p.deleteIn directory (faults.delete file) file
    let (p, deleted, failed) := deleteAll faults directory p rest
    match result with
    | .ok () => (p, file :: deleted, failed)
    | .error e => (p, deleted, (file, .publish (Files.join directory file) e) :: failed)

namespace Writer

/-- Publishes files that have been collected; `failed` could not be. The directory is at `dir`
when it begins. -/
def send (w : Writer) (faults : Faults) (dir : Place) (staged : Staged)
    (failed : List (String × Failure)) (tree : FileTree) : Progress × Report :=
  let files := stagedFiles staged
  let existing := clusterFiles tree dir
  let (p, written, unsent) := replaceAll faults w.directory ⟨tree, []⟩ files.entries
  let failed := failed ++ unsent
  if !w.clean then (p, { written, failed })
  else
    let stale := existing.filter fun file =>
      !files.contains file && !(failed.map (·.1)).contains file
    let (kept, gone) := stale.partition w.isProtected
    let (p, deleted, failedDeletes) := deleteAll faults w.directory p gone
    (p, { written, failed, deleted, kept, failedDeletes })

/-- Publishes a cluster set while things may go wrong. `scratch` is the directory in which
the files are collected. -/
def publishUnder (w : Writer) (faults : Faults) (scratch : String) (set : ClusterSet)
    (tree : FileTree) : Progress × Except Failure Report :=
  match tree.directory? w.directory with
  | none => (⟨tree, []⟩, .error (.notDirectory w.directory))
  | some dir =>
    match faults.collect with
    | some e => (⟨tree, []⟩, .error (.io e))
    | none =>
      let (staged, failed) := stageAll faults scratch .empty set.entries
      match faults.listStaged, faults.listPublished with
      | some e, _ | none, some e => (⟨tree, []⟩, .error (.io e))
      | none, none =>
        let (p, report) := w.send faults dir staged failed tree
        (p, .ok report)

/-- Publishes a cluster set. -/
def publish (w : Writer) (scratch : String) (set : ClusterSet) (tree : FileTree) :
    FileTree × Except Failure Report :=
  let (p, result) := w.publishUnder .none scratch set tree
  (p.tree, result)

end Writer
end Publish
end ClusterSync
