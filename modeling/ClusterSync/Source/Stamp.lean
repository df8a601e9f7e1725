/-
# The time of a synchronization

A cluster that tells when the set was put together, in seconds since the start of 1970.
-/

import ClusterSync.Source.Directory

namespace ClusterSync
namespace Stamp

/-- The usual name of the cluster. -/
def usualName : String := "version"

/-- What describes the cluster at a time. -/
def attributes (time : Int64) : Attributes :=
  .ofList [(clusterKey, .one (.integer time)), ("UPDATE", .one (.integer time))]

/-- The set of this cluster alone. -/
def clusters (cluster : String) (time : Int64) : ClusterSet :=
  .ofList [(cluster, attributes time)]

end Stamp

/-- The source that tells the time. -/
def Source.stamp (cluster : String) (time : Int64) : Source where
  name := "version"
  read _ := .ok (Stamp.clusters cluster time)

end ClusterSync
