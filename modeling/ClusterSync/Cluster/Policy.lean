/-
# Putting cluster sets together

A source adds its clusters to what the sources before it delivered. Its policy says
what happens to a cluster that both have:

| policy | the cluster afterwards |
| --- | --- |
| `merge` | all keys of both, the added value where both have a key |
| `override` | the added cluster alone |
| `nomerge` | as it was |

Clusters that only one of them has are kept as they are.
-/

import ClusterSync.Cluster.Value
import ClusterSync.Unicode.Case

namespace ClusterSync

/-- How an added cluster set meets the main one. -/
inductive Policy
  | merge
  | override
  | nomerge
deriving DecidableEq

namespace Policy

/-- The name of a policy. -/
def name : Policy → String
  | merge => "merge"
  | override => "override"
  | nomerge => "nomerge"

/-- The policy of exactly this name. -/
def ofName? (s : String) : Option Policy :=
  [merge, override, nomerge].find? (·.name == s)

/-- The policy that a text names in any letter case; `no_merge` is another name of
`nomerge`. -/
def parse? (s : String) : Option Policy :=
  let s := Unicode.toLower s
  if s == "no_merge" then some nomerge else ofName? s

/-- The complaint about a text that names no policy. -/
def unknownMessage (s : String) : String :=
  s!"Unknown merge policy '{Unicode.toLower s}'. Valid policies: merge, override, nomerge"

end Policy

namespace ClusterSet

/-- The added clusters that the main set does not have. -/
def newOnly (main added : ClusterSet) : ClusterSet :=
  added.filter fun name _ => !main.contains name

/-- Both sets, with the keys of both for a cluster that both have. -/
def mergeKeys (main added : ClusterSet) : ClusterSet :=
  main.overlay (added.mapEntries fun name data =>
    match main.get? name with
    | some old => old.overlay data
    | none => data)

/-- What a policy makes of an added set: under `nomerge` the new clusters alone, else
the whole set. -/
def merge (main added : ClusterSet) : Policy → ClusterSet
  | .merge => mergeKeys main added
  | .override => main.overlay added
  | .nomerge => newOnly main added

/-- The main set after a set has been added to it. -/
def fold (main added : ClusterSet) : Policy → ClusterSet
  | .nomerge => main.overlay (newOnly main added)
  | p => merge main added p

end ClusterSet
end ClusterSync
