/-
# The commands

| command | does |
| --- | --- |
| `run --config FILE` | reads all sources, and publishes what they have |
| `run --config FILE --dry-run` | reads all sources, and prints the names of the clusters |
| `check --config FILE` | reads a configuration |
| `expand EXPRESSION` | prints the members of an expression |
| `expand EXPRESSION --collapse` | prints the shortest expression for the same members |

`expand` may be told the server (`--host`) and the longest expression for one request
(`--max-chars`). `--verbose` is allowed everywhere.

A command ends with status 0, or with 1 and a complaint. Arguments that make no command end
with status 2.
-/

import ClusterSync.Config.Reading
import ClusterSync.Run.Arguments
import ClusterSync.Run.Plan

namespace ClusterSync

/-- What may be asked for on the command line. -/
inductive Command
  | run (config : String) (dry : Bool)
  | check (config : String)
  | expand (expression host : String) (collapse : Bool) (maxChars : UInt64)
deriving DecidableEq

namespace Command

open Arguments (Switch Stop Given)

/-- The whole number that a text is, if a word of 64 bits holds it. A plus may stand in
front. -/
def word? (s : String) : Option UInt64 :=
  let digits :=
    match s.toList with
    | '+' :: rest => rest
    | cs => cs
  if digits.isEmpty || !digits.all (·.isDigit) then none
  else
    let n := digits.foldl (fun n c => 10 * n + (c.toNat - '0'.toNat)) 0
    if n < UInt64.size then some (UInt64.ofNat n) else none

/-- Switches that are allowed everywhere. -/
def everywhere : List Switch := [{ long := "verbose", short := some 'v' }, Arguments.help]

/-- The switch that names a configuration. -/
def configSwitch : Switch := { long := "config", short := some 'c', value := some (· != "") }

/-- The command of a name with what is given to it. -/
def ofGiven? (name : String) (g : Given) : Option Command :=
  match name with
  | "run" => (g.value? "config").map (run · (g.has "dry-run"))
  | "check" => (g.value? "config").map check
  | "expand" =>
    g.words.head?.map fun expression =>
      let usual : Range.Settings := {}
      expand expression ((g.value? "host").getD usual.host) (g.has "collapse")
        (((g.value? "max-chars").bind word?).getD usual.maxChars)
  | _ => none

/-- The switches of a command beside those that are allowed everywhere, and how many words
it takes. -/
def shape? : String → Option (List Switch × Nat)
  | "run" => some ([configSwitch, { long := "dry-run" }], 0)
  | "check" => some ([configSwitch], 0)
  | "expand" =>
    some ([{ long := "host", value := some fun _ => true }, { long := "collapse" },
      { long := "max-chars", value := some fun s => (word? s).isSome }], 1)
  | _ => none

/-- The command that arguments ask for. -/
def ofArguments (args : List String) : Except Stop Command := do
  let (name, rest) ← Arguments.readCommand everywhere {} args
  match shape? name with
  | some (switches, most) =>
    let g ← Arguments.read (switches ++ everywhere) most {} none rest
    match ofGiven? name g with
    | some c => return c
    | none => throw .misuse
  | none =>
    match name, rest with
    | "help", [] => throw .help
    | "help", [topic] =>
      if topic = "help" || (shape? topic).isSome then throw .help else throw .misuse
    | _, _ => throw .misuse

end Command

/-- What a command prints. -/
inductive Printed
  | lines (ls : List String)
  /-- What has been published into a directory. -/
  | published (directory : String) (o : Outcome)

/-- The text that is printed, once it is known how long it took. -/
def Printed.text (took : String) : Printed → String
  | lines ls => String.join (ls.map (· ++ "\n"))
  | published directory o =>
    s!"published {o.clusters} clusters to {directory} ({o.report.written.length} written, " ++
      s!"{o.report.deleted.length} deleted, {o.report.kept.length} protected) in {took}\n"

/-- How a command ends. -/
structure Ending where
  printed : Printed := .lines []
  /-- Why it has failed. -/
  complaint : Option String := none
  /-- What it has done to the files. -/
  progress : Publish.Progress

/-- The status of an ending. -/
def Ending.status (e : Ending) : Nat := if e.complaint.isSome then 1 else 0

namespace Command

/-- The complaint about a report that is not clean. -/
def complaintAbout (r : Publish.Report) : Option String :=
  if r.isClean then none
  else some (s!"{r.failed.length} files failed to publish, " ++
    s!"{r.failedDeletes.length} stale files could not be deleted")

/-- Collects, and publishes unless it is only to be shown. -/
def synchronize (around : Surroundings) (c : Config) (dry : Bool) (tree : FileTree) : Ending :=
  match Runner.ofConfig around c with
  | .error e => { complaint := some e.message, progress := ⟨tree, []⟩ }
  | .ok runner =>
    if dry then
      match runner.collect tree with
      | .error e => { complaint := some e.message, progress := ⟨tree, []⟩ }
      | .ok set => { printed := .lines set.keys, progress := ⟨tree, []⟩ }
    else
      match runner.run around.scratch tree with
      | (progress, .error e) => { complaint := some e.message, progress }
      | (progress, .ok o) =>
        { printed := .published c.directory o, complaint := complaintAbout o.report, progress }

/-- The complaint about a configuration that cannot be had. -/
def complaintOf (path : String) (fault : ConfigFault) : String :=
  s!"failed to load config from {path}\n\nCaused by:\n    {fault.message}"

/-- What asking a range server prints. -/
def ask (server : Range.Server) (limits : Range.Limits) (collapse : Bool) (expression : String) :
    Except Range.QueryError (List String) :=
  if collapse then (server.collapse limits ⟨expression⟩ []).1.map ([·])
  else (server.expandMembers limits ⟨expression⟩ []).1

/-- Does what a command asks for. -/
def perform (around : Surroundings) (tree : FileTree) : Command → Ending
  | .run path dry =>
    match Config.ofFile tree path with
    | .error fault => { complaint := some (complaintOf path fault), progress := ⟨tree, []⟩ }
    | .ok c => synchronize around c dry tree
  | .check path =>
    match Config.ofFile tree path with
    | .error fault => { complaint := some (complaintOf path fault), progress := ⟨tree, []⟩ }
    | .ok _ => { printed := .lines [s!"{path}: ok"], progress := ⟨tree, []⟩ }
  | .expand expression host collapse maxChars =>
    let settings : Range.Settings := { host, maxChars }
    let answer : Except Range.QueryError (List String) := do
      ask (← settings.connect around.web) settings.limits collapse expression
    match answer with
    | .ok ls => { printed := .lines ls, progress := ⟨tree, []⟩ }
    | .error e => { complaint := some e.message, progress := ⟨tree, []⟩ }

end Command
end ClusterSync
