/-
# How a synchronization fails

Every failure ends what was being done. A cluster file that cannot be read is no
failure: its cluster is left out. Files that cannot be published are reported one by one
(`Publish.Report`).
-/

import ClusterSync.Files.Error
import ClusterSync.Pattern.Reading
import ClusterSync.Range.Client
import ClusterSync.Yaml.Error

namespace ClusterSync

/-- What is wrong with a configuration. -/
inductive ConfigFault
  /-- A pattern cannot be read. -/
  | invalidPattern (pattern : String) (reason : String)
  /-- A configuration that can be read and makes no sense. -/
  | invalid (reason : String)
  | io (e : Files.OsError)
  | yaml (fault : Yaml.Fault)

/-- The wording of a fault. -/
def ConfigFault.message : ConfigFault → String
  | invalidPattern pattern reason => s!"Invalid pattern '{pattern}': {reason}"
  | invalid reason => s!"Invalid configuration: {reason}"
  | io e => s!"IO error: {e.message}"
  | yaml fault => "YAML parsing error: " ++ fault.message?.getD ""

/-- The pattern that a text in a configuration stands for. -/
def Pattern.ofConfig (text : String) : Except ConfigFault Pattern :=
  match Pattern.ofText? text with
  | some p => .ok p
  | none => .error (.invalidPattern text "it cannot be read")

/-- Why a synchronization fails. -/
inductive Failure
  /-- The directory to publish into, or to read from, is none. -/
  | notDirectory (path : String)
  | unsupportedFormat (format : String)
  /-- A source cannot be read. -/
  | source (name reason : String)
  /-- A file cannot be published. -/
  | publish (path : String) (e : Files.OsError)
  | io (e : Files.OsError)
  | yaml (fault : Yaml.Fault)
  | range (e : Range.QueryError)
  | config (fault : ConfigFault)

namespace Failure

/-- The wording of a failure. -/
def message : Failure → String
  | notDirectory path => s!"Destination is not a directory: {path}"
  | unsupportedFormat format => s!"Output type '{format}' is not supported (only yaml)"
  | source name reason => s!"Source '{name}' failed: {reason}"
  | publish path e => s!"Failed to publish {path}: {e.message}"
  | io e => s!"IO error: {e.message}"
  | yaml fault => "YAML error: " ++ fault.message?.getD ""
  | range e => s!"Range query failed: {e.message}"
  | config fault => s!"Configuration error: {fault.message}"

/-- The wording of what caused a failure, if something else did. -/
def cause? : Failure → Option String
  | notDirectory _ | unsupportedFormat _ | source .. => none
  | publish _ e | io e => some e.message
  | yaml fault => some (fault.message?.getD "")
  | range e => some e.message
  | config fault => some fault.message

/-- The failure of a source of this name: itself if it is one already. -/
def named (label : String) : Failure → Failure
  | source name reason => source name reason
  | e => source label e.message

/-- The failure of a source by another name. -/
def relabelled (label : String) : Failure → Failure
  | source _ reason => source label reason
  | e => source label e.message

end Failure
end ClusterSync
