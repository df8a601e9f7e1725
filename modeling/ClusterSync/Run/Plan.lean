/-
# From a configuration to a plan

What a configuration asks for is made up in order: the format, the protected files, then the
sources. The first thing that cannot be had is the failure.
-/

import ClusterSync.Config.Basic
import ClusterSync.Run.Runner
import ClusterSync.Source.Listing
import ClusterSync.Source.Membership
import ClusterSync.Source.Stamp

namespace ClusterSync

/-- What sources reach beside the files of this machine. -/
structure Surroundings where
  web : Web
  /-- The files of a repository at an address, on a branch or else the usual one. -/
  clone : String → Option String → Except String FileTree
  /-- What a program leaves that is run with arguments. -/
  program : String → List String → Except Files.OsError Exporter.Ended
  /-- Seconds since the start of 1970. -/
  now : Int64
  /-- The path of a fresh directory. -/
  scratch : String

/-- The program that exports from Subversion. -/
def Exporter.svnProgram : String := "svn"

/-- The range server of a client, unless no such client can be made. -/
def Range.Settings.connect (s : Range.Settings) (web : Web) :
    Except Range.QueryError Range.Server :=
  match s.clientError? with
  | some e => .error e
  | none => .ok (.ofWeb web s.baseUrl)

/-- The source that an entry asks for. -/
def Source.ofEntry (around : Surroundings) (server : Range.Settings) (entry : SourceEntry) :
    Except Failure Source :=
  let exported (exporter : Exporter) (repo path : String) : Except Failure Source := do
    return .exported entry.label (← Exported.ofPath exporter repo path) around.scratch
  match entry.origin with
  | .directory path => .ok (.directory entry.label path)
  | .git repo path branch => exported (.git around.clone branch) repo path
  | .svn repo path =>
    exported (.svn around.program Exporter.svnProgram around.scratch) repo path
  | .listing url filter _ => do
    let wanted ← (Pattern.ofConfig filter).mapError .config
    return .listing ⟨entry.label, url, wanted⟩ around.web around.scratch
  | .stamp => .ok (.stamp Stamp.usualName around.now)
  | .membership => do
    let asked ← (server.connect around.web).mapError .range
    return .membership asked server.limits Membership.usualName

/-- An entry as it stands in a plan. -/
def Planned.ofEntry (around : Surroundings) (server : Range.Settings) (entry : SourceEntry) :
    Except Failure Planned := do
  return ⟨entry.label, entry.policy, ← Source.ofEntry around server entry⟩

/-- The writer that a configuration asks for. -/
def Config.writer (c : Config) : Except Failure Publish.Writer := do
  let format ← Publish.Format.ofName c.format
  let protection ← c.protection.mapError .config
  return { directory := c.directory, format, clean := c.clean, isProtected := protection.covers }

/-- The plan that a configuration asks for. -/
def Runner.ofConfig (around : Surroundings) (c : Config) : Except Failure Runner := do
  let writer ← c.writer
  let sources ← c.sources.mapM (Planned.ofEntry around c.server)
  return ⟨writer, sources⟩

end ClusterSync
