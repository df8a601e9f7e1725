/-
# One synchronization

Sources are read one after another, and each set is folded into what the sources before it
delivered, by the policy of its source. Only when all have been read is the whole set
published. The first source that cannot be read ends it, and then nothing is published; what
goes wrong in a source is told under the label that the source has in the plan.
-/

import ClusterSync.Cluster.Policy
import ClusterSync.Publish.Writer
import ClusterSync.Source.Directory

namespace ClusterSync

/-- A source in a plan. -/
structure Planned where
  label : String
  policy : Policy
  source : Source

/-- A plan for synchronizations: what is read, and how it is published. -/
structure Runner where
  writer : Publish.Writer
  sources : List Planned

/-- What a synchronization has done. -/
structure Outcome where
  /-- How many clusters there are. -/
  clusters : Nat
  report : Publish.Report

namespace Runner

/-- Reads sources in turn and folds what they deliver into a set. -/
def collectInto (tree : FileTree) : ClusterSet → List Planned → Except Failure ClusterSet
  | set, [] => .ok set
  | set, planned :: rest =>
    match planned.source.read tree with
    | .error e => .error (e.named planned.label)
    | .ok added => collectInto tree (set.fold added planned.policy) rest

/-- The set of all sources. -/
def collect (r : Runner) (tree : FileTree) : Except Failure ClusterSet :=
  collectInto tree .empty r.sources

/-- Collects and publishes while things may go wrong. `scratch` is the directory in which
the files are collected. -/
def runUnder (r : Runner) (faults : Publish.Faults) (scratch : String) (tree : FileTree) :
    Publish.Progress × Except Failure Outcome :=
  match r.collect tree with
  | .error e => (⟨tree, []⟩, .error e)
  | .ok set =>
    let (progress, result) := r.writer.publishUnder faults scratch set tree
    (progress, result.map fun report => { clusters := set.size, report })

/-- Collects and publishes. -/
def run (r : Runner) (scratch : String) (tree : FileTree) :
    Publish.Progress × Except Failure Outcome :=
  r.runUnder .none scratch tree

end Runner
end ClusterSync
