/-
# Clusters in a directory

A source has a name and can be read: that gives the clusters it has, or fails.

A directory holds one file per cluster. Entries whose names are not those of cluster files
do not count. A cluster file that cannot be read, or is no document of attributes, is
skipped: its cluster is left out, and the rest of the directory is read all the same.
-/

import ClusterSync.Cluster.Reading
import ClusterSync.Failure
import ClusterSync.Files.ClusterFile
import ClusterSync.Files.Tree

namespace ClusterSync

/-- Where clusters come from. -/
structure Source where
  name : String
  /-- The clusters that it has, given the files that are there. -/
  read : FileTree → Except Failure ClusterSet

namespace FileTree

open Files (Place)

/-- The attributes in a file, if it can be read and holds some. -/
def attributes? (tree : FileTree) (dir : Place) (file : String) : Option Attributes :=
  match tree.readText dir file with
  | .ok text => (Attributes.ofFile text).toOption
  | .error _ => none

/-- The cluster that a file is for, with its attributes. -/
def clusterIn? (tree : FileTree) (dir : Place) (file : String) : Option (String × Attributes) :=
  match ClusterFile.cluster? file with
  | some cluster => (tree.attributes? dir file).map fun data => (cluster, data)
  | none => none

/-- The clusters whose files are in a directory. -/
def clustersIn (tree : FileTree) (dir : Place) : ClusterSet :=
  .ofList ((tree.list dir).filterMap fun e => tree.clusterIn? dir e.1)

/-- The clusters in the directory that a path leads to. -/
def readClusters (tree : FileTree) (path : String) : Except Failure ClusterSet :=
  match tree.directory? path with
  | some dir => .ok (tree.clustersIn dir)
  | none => .error (.notDirectory path)

end FileTree

/-- The source that reads a directory of this machine. -/
def Source.directory (name path : String) : Source where
  name := name
  read tree := (tree.readClusters path).mapError (·.relabelled name)

end ClusterSync
