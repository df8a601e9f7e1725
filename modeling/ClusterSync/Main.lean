/-
# The command line

A command sees the configuration that it names, and the files whose paths stand on standard
input, one per line; a path that ends in a slash is a directory. What it does to the output
directory is carried out afterwards, action by action. It reaches no other machines and runs
no programs.
-/

import ClusterSync.Run.Command
import ClusterSync.Run.Elapsed
import Std.Time.DateTime.Timestamp

namespace ClusterSync
namespace Main

/-- How the program is called. -/
def usage : String :=
  "usage: cluster-sync run --config FILE [--dry-run]\n" ++
  "       cluster-sync check --config FILE\n" ++
  "       cluster-sync expand EXPRESSION [--host HOST] [--collapse] [--max-chars N]"

/-- The surroundings of a machine that reaches no other, at a time. -/
def alone (now : Int) : Surroundings where
  web _ := .error "no other machine can be reached"
  clone _ _ := .error "no other machine can be reached"
  program _ _ := .error .notFound
  now := Int64.ofInt now
  scratch := "/tmp/cluster-sync"

/-- Adds what a path leads to, if anything can be read there. -/
def take (tree : FileTree) (path : String) : IO FileTree := do
  let place := Files.placeOf path
  if path.endsWith "/" then
    return tree.overlay (.ofList (FileTree.directoriesTo place))
  match ← (IO.FS.readBinFile path).toBaseIO with
  | .ok bytes =>
    return tree.overlay (.ofList (FileTree.directoriesTo place.dropLast ++ [(place, .file bytes)]))
  | .error _ => return tree

/-- The files that a command sees. -/
def gather : Command → IO FileTree
  | .run path _ => do
    let listed ← IO.FS.lines "/dev/stdin"
    (path :: listed.toList).foldlM take .empty
  | .check path => take .empty path
  | .expand .. => return .empty

/-- Does to a directory what an action says. -/
def carryOut (directory : String) : Publish.Action → IO Unit
  | .fill file bytes =>
    IO.FS.writeBinFile (Files.join directory (ClusterFile.hidden file)) bytes
  | .promote file =>
    IO.FS.rename (Files.join directory (ClusterFile.hidden file)) (Files.join directory file)
  | .discard file => IO.FS.removeFile (Files.join directory (ClusterFile.hidden file))
  | .delete file => IO.FS.removeFile (Files.join directory file)

/-- Does a command and says what came of it. -/
def perform (c : Command) : IO UInt32 := do
  let begun ← IO.monoNanosNow
  let now ← Std.Time.Timestamp.now
  let ending := c.perform (alone now.toSecondsSinceUnixEpoch.val) (← gather c)
  if let .published directory _ := ending.printed then
    ending.progress.log.forM (carryOut directory)
  IO.print (ending.printed.text (Elapsed.text ((← IO.monoNanosNow) - begun)))
  if let some complaint := ending.complaint then
    IO.eprintln ("Error: " ++ complaint)
  return UInt32.ofNat ending.status

end Main
end ClusterSync

/-- Does what the arguments ask for. -/
def main (args : List String) : IO UInt32 :=
  match ClusterSync.Command.ofArguments args with
  | .ok c => ClusterSync.Main.perform c
  | .error .help => do
    IO.println ClusterSync.Main.usage
    return 0
  | .error .misuse => do
    IO.eprintln ClusterSync.Main.usage
    return 2
