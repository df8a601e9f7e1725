/-
# Configurations

A configuration says where clusters come from, how they are put together and where they are
published. It is sound if it has a source at all, and if its patterns can be read: those of
protected files first, then the filters of its entries in turn.
-/

import ClusterSync.Config.Entry
import ClusterSync.Publish.Protection
import ClusterSync.Range.Settings

namespace ClusterSync

/-- What one synchronization does. -/
structure Config where
  /-- The directory to publish into. -/
  directory : String
  format : String := "yaml"
  /-- Are files deleted whose clusters are gone? -/
  clean : Bool := true
  /-- Patterns for the files that are never deleted. -/
  kept : List String := []
  /-- The range server, if the configuration says anything about it. -/
  range : Option Range.Settings := none
  sources : List SourceEntry := []
deriving DecidableEq

/-- Can the filter be read, if there is one? -/
def Origin.check : Origin → Except ConfigFault Unit
  | .listing _ filter _ => (Pattern.ofConfig filter).map fun _ => ()
  | _ => .ok ()

namespace Config

/-- The range server of a configuration. -/
def server (c : Config) : Range.Settings := c.range.getD {}

/-- The protected files of a configuration. -/
def protection (c : Config) : Except ConfigFault Protection :=
  Protection.ofTexts c.kept

/-- Is the configuration sound? If not, what is its first fault? -/
def check (c : Config) : Except ConfigFault Unit :=
  if c.sources.isEmpty then .error (.invalid "no sources configured")
  else
    match c.protection with
    | .error e => .error e
    | .ok _ => c.sources.forM fun entry => entry.origin.check

end Config
end ClusterSync
