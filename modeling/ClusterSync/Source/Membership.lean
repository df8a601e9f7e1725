/-
# Which clusters a machine is in

The range server lists all clusters and the members of each. Turned around, that is a
cluster with one key per member: the clusters that have it, in byte order. A cluster whose
members the server does not tell is left out.

Reading goes with the queries that have been asked, latest first.
-/

import ClusterSync.Source.Directory

namespace ClusterSync
namespace Membership

open Range (Server Limits Query Asked)

/-- The usual name of the cluster. -/
def usualName : String := "index"

/-- The expression for all clusters. -/
def allClusters : String := "allclusters()"

/-- The expression for the members of a cluster. -/
def membersOf (cluster : String) : String := "%" ++ cluster

/-- Members with the clusters that they are in. -/
abbrev Index := Table String (List String)

/-- Notes that a member is in a cluster. -/
def Index.note (cluster : String) (index : Index) (member : String) : Index :=
  index.insert member ((index.get? member).getD [] ++ [cluster])

/-- Looks up clusters in turn and notes their members. -/
def lookUp (server : Server) (limits : Limits) :
    Index → List String → List Query → Index × List Query
  | index, [], asked => (index, asked)
  | index, cluster :: rest, asked =>
    match server.expandMembers limits ⟨membersOf cluster⟩ asked with
    | (.ok members, asked) => lookUp server limits (members.foldl (Index.note cluster) index) rest asked
    | (.error _, asked) => lookUp server limits index rest asked

/-- The attributes that an index makes. -/
def Index.attributes (index : Index) : Attributes :=
  index.mapEntries fun _ clusters => .many (clusters.map .text)

/-- The set of this cluster alone. -/
def clusters (server : Server) (limits : Limits) (cluster : String) (asked : List Query) :
    Asked ClusterSet :=
  match server.expandMembers limits ⟨allClusters⟩ asked with
  | (.error e, asked) => (.error e, asked)
  | (.ok names, asked) =>
    let (index, asked) := lookUp server limits .empty names asked
    (.ok (.ofList [(cluster, index.attributes)]), asked)

end Membership

/-- The source that asks a range server which clusters a machine is in. -/
def Source.membership (server : Range.Server) (limits : Range.Limits) (cluster : String) :
    Source where
  name := "reverse_index"
  read _ := (Membership.clusters server limits cluster []).1.mapError .range

end ClusterSync
