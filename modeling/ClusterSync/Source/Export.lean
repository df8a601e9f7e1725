/-
# Clusters in a repository

A repository is exported into a fresh directory, of which one subdirectory is read as any
directory is. The path of the subdirectory may not lead out of the export. What is
exported stays nowhere: reading changes no files.

An exporter says why it fails under a name of its own; the source passes that on under its
own name.
-/

import ClusterSync.Source.Directory
import ClusterSync.Text.Lossy

namespace ClusterSync

open Files (Place OsError)

namespace FileTree

/-- The directories on the way to a place, and at it. -/
def directoriesTo (place : Place) : List (Place × Files.Entry) :=
  (List.range place.length).map fun n => (place.take (n + 1), .directory)

/-- A tree with another one below a place, instead of what was there. -/
def mount (tree : FileTree) (place : Place) (below : FileTree) : FileTree :=
  (tree.filter fun p _ => !place.isPrefixOf p).overlay
    (.ofList (directoriesTo place ++ below.entries.map fun e => (place ++ e.1, e.2)))

end FileTree

/-- The place that a path from the top names. -/
def Files.placeOf (path : String) : Place := (Files.names path).filter (!·.isEmpty)

/-- A way to get at the files of repositories. -/
structure Exporter where
  /-- What sort of repositories it is for. -/
  kind : String
  /-- The files of the repository at an address, by their places below its top. -/
  fetch : String → Except Failure FileTree

namespace Exporter

/-- The exporter that clones a repository and checks out a branch, or else the one that the
repository names. -/
def git (clone : String → Option String → Except String FileTree) (branch : Option String) :
    Exporter where
  kind := "git"
  fetch repo := (clone repo branch).mapError fun reason =>
    .source "git" s!"clone of {repo} failed: {reason}"

/-- What a program leaves when it has ended. -/
structure Ended where
  status : Nat
  /-- What it has written to its standard error. -/
  complaint : ByteArray
  /-- The files that it has written, below the directory that it was given. -/
  files : FileTree

/-- The arguments with which a repository is exported into a directory. -/
def svnArguments (repo target : String) : List String :=
  ["export", "--force", "--non-interactive", "-r", "HEAD", repo, target]

/-- The exporter that runs a program which exports into a directory. -/
def svn (run : String → List String → Except OsError Ended) (program target : String) :
    Exporter where
  kind := "svn"
  fetch repo :=
    match run program (svnArguments repo target) with
    | .error e => .error (.source "svn" s!"could not run {program}: {e.message}")
    | .ok ended =>
      if ended.status = 0 then .ok ended.files
      else
        let reason := Text.trim (Text.ofBytesLossy ended.complaint)
        .error (.source "svn" s!"export of {repo} failed: {reason}")

end Exporter

/-- A subdirectory of a repository. -/
structure Exported where
  exporter : Exporter
  repo : String
  /-- Its path in the repository; empty for the whole of it. -/
  directory : String

namespace Exported

/-- The subdirectory, if its path does not lead out of the export. -/
def ofPath (exporter : Exporter) (repo directory : String) : Except Failure Exported :=
  if Files.staysBelow directory then .ok ⟨exporter, repo, directory⟩
  else .error (.source exporter.kind
    s!"subdirectory must be relative and stay inside the export: {directory}")

/-- The clusters in the subdirectory, with the export below the path `scratch`. -/
def clusters (e : Exported) (scratch : String) (tree : FileTree) : Except Failure ClusterSet := do
  let files ← e.exporter.fetch e.repo
  (tree.mount (Files.placeOf scratch) files).readClusters (Files.join scratch e.directory)

end Exported

/-- The source that reads a subdirectory of a repository. -/
def Source.exported (name : String) (e : Exported) (scratch : String) : Source where
  name := name
  read tree := (e.clusters scratch tree).mapError (·.relabelled name)

end ClusterSync
