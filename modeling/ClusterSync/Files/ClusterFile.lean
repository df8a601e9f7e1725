/-
# Names of cluster files

A cluster is published as a file of its name with `.yaml` behind it. While its body is
being written the file has a hidden name: a point in front and `.rngsyn` behind. No hidden
name is one of a cluster file, since it does not end in `.yaml`.

A name with a line feed is no name of a cluster file.
-/

import ClusterSync.Text.Blank

namespace ClusterSync
namespace ClusterFile

/-- What the name of a cluster file ends in. -/
def ending : String := ".yaml"

/-- What a hidden name ends in. -/
def hiddenEnding : String := ".rngsyn"

/-- The file of a cluster. -/
def name (cluster : String) : String := cluster ++ ending

/-- The cluster that a file is for, if it is a cluster file. -/
def cluster? (file : String) : Option String :=
  match file.toList.reverse with
  | 'l' :: 'm' :: 'a' :: 'y' :: '.' :: stem =>
    if stem.isEmpty || stem.contains '\n' then none else some (String.ofList stem.reverse)
  | _ => none

/-- Is the file one for a cluster? -/
def isName (file : String) : Bool := (cluster? file).isSome

/-- The name under which the body of a file is written first. -/
def hidden (file : String) : String := "." ++ file ++ hiddenEnding

/-- May a cluster have a file? Its name must not be empty, be hidden, or lead elsewhere. -/
def isPlain (cluster : String) : Bool :=
  !cluster.isEmpty && !cluster.startsWith "." &&
    !cluster.toList.contains '/' && !cluster.toList.contains '\\'

end ClusterFile
end ClusterSync
