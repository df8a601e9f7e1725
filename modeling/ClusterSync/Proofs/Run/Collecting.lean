/-
# The set of all sources

Where every source can be read, collecting ends well, and what the set has of a cluster is
what the contributions to it come to (`exists_collectInto_eq_ok`): a fold over the sources for
each cluster, with a closed form (`foldl_onto_of_isBase`).
-/

import ClusterSync.Proofs.Cluster.Folding
import ClusterSync.Run.Runner

namespace ClusterSync
namespace Runner

open Contribution

variable {tree : FileTree} {sources : List Planned} {name : String}

/-- What a source contributes to a cluster, if it can be read and has it. -/
def contribution? (tree : FileTree) (name : String) (planned : Planned) : Option Contribution :=
  match planned.source.read tree with
  | .ok added => (added.get? name).map fun data => ⟨planned.policy, data⟩
  | .error _ => none

/-- What sources contribute to a cluster, in their order. -/
def contributions (tree : FileTree) (sources : List Planned) (name : String) :
    List Contribution :=
  sources.filterMap (contribution? tree name)

theorem contributions_ne_nil_iff :
    contributions tree sources name ≠ [] ↔
      ∃ planned ∈ sources, ∃ added, planned.source.read tree = .ok added ∧ name ∈ added.keys := by
  rw [contributions, ne_eq, List.filterMap_eq_nil_iff, Classical.not_forall]
  refine exists_congr fun planned => ?_
  rw [Classical.not_imp]
  refine and_congr_right fun _ => ?_
  rw [contribution?]
  cases planned.source.read tree with
  | error e => simp
  | ok added => simp [Table.mem_keys_iff, Option.isSome_iff_ne_none]

/-- **What collecting does to each cluster.** -/
theorem exists_collectInto_eq_ok (set : ClusterSet)
    (reads : ∀ planned ∈ sources, ∃ added, planned.source.read tree = .ok added) :
    ∃ out, collectInto tree set sources = .ok out ∧
      ∀ name, out.get? name = (contributions tree sources name).foldl onto (set.get? name) := by
  induction sources generalizing set with
  | nil => exact ⟨set, rfl, fun _ => rfl⟩
  | cons planned rest ih =>
    obtain ⟨added, hread⟩ := reads planned (List.mem_cons_self ..)
    obtain ⟨out, hout, hget⟩ := ih (set.fold added planned.policy)
      fun other hother => reads other (List.mem_cons_of_mem _ hother)
    refine ⟨out, ?_, fun name => ?_⟩
    · rw [collectInto, hread]
      exact hout
    · have hfirst : contribution? tree name planned =
          (added.get? name).map fun data => ⟨planned.policy, data⟩ := by
        rw [contribution?, hread]
      rw [hget, ClusterSet.get?_fold, contributions, contributions, List.filterMap_cons, hfirst]
      cases added.get? name <;> rfl

/-- **A cluster is collected exactly if a source has it**, whatever the policies. -/
theorem mem_keys_of_collectInto {set : ClusterSet}
    (reads : ∀ planned ∈ sources, ∃ added, planned.source.read tree = .ok added)
    (h : collectInto tree .empty sources = .ok set) :
    name ∈ set.keys ↔ ∃ planned ∈ sources, ∃ added,
      planned.source.read tree = .ok added ∧ name ∈ added.keys := by
  obtain ⟨out, hout, hget⟩ := exists_collectInto_eq_ok .empty reads
  obtain rfl := Except.ok.inj (hout.symm.trans h)
  rw [← contributions_ne_nil_iff, Table.mem_keys_iff_exists, hget, Table.get?_empty]
  constructor
  · rintro ⟨data, hdata⟩ hnil
    rw [hnil] at hdata
    cases hdata
  · intro hne
    obtain ⟨base, later, hbase⟩ := exists_isBase hne
    exact ⟨_, foldl_onto_of_isBase hbase⟩

/-- **The closed form of the set of all sources.** A cluster is there if any source has it. Its
base is the last of those sources that overrides, or the first of them if none does, and over
its data that of the later ones that merge is laid in turn, key by key. -/
theorem collect_closedForm (r : Runner)
    (reads : ∀ planned ∈ r.sources, ∃ added, planned.source.read tree = .ok added) :
    ∃ set, r.collect tree = .ok set ∧ ∀ name,
      (name ∈ set.keys ↔ ∃ planned ∈ r.sources, ∃ added,
        planned.source.read tree = .ok added ∧ name ∈ added.keys) ∧
      (name ∈ set.keys → ∃ base later, IsBase (contributions tree r.sources name) base later) ∧
      ∀ base later, IsBase (contributions tree r.sources name) base later →
        ∃ data, set.get? name = some data ∧ ∀ key,
          data.get? key = lastValue key (base.data.get? key) (merging later) ∧
          (key ∈ data.keys ↔ key ∈ base.data.keys ∨
            ∃ c ∈ later, c.policy = .merge ∧ key ∈ c.data.keys) := by
  obtain ⟨set, hset, hget⟩ := exists_collectInto_eq_ok .empty reads
  have hempty : ∀ name, set.get? name = (contributions tree r.sources name).foldl onto none :=
    fun name => (hget name).trans (by rw [Table.get?_empty])
  refine ⟨set, hset, fun name => ?_⟩
  have hpresent : name ∈ set.keys ↔ _ := mem_keys_of_collectInto reads hset
  refine ⟨hpresent, fun h => exists_isBase (contributions_ne_nil_iff.2 (hpresent.1 h)),
    fun base later hbase => ?_⟩
  refine ⟨_, (hempty name).trans (foldl_onto_of_isBase hbase), fun key =>
    ⟨get?_overlayAll _ _ _, mem_keys_overlayAll.trans ?_⟩⟩
  simp only [merging, List.mem_filter, decide_eq_true_iff, and_assoc]

/-- A source that has one cluster, with one key. -/
def sampleSource (policy : Policy) (key value : String) : Planned where
  label := key
  policy := policy
  source := ⟨key, fun _ => .ok (.ofList [("web", .ofList [(key, .one (.text value))])])⟩

/-- Four sources of one cluster, the second of which overrides. -/
def sampleRunner : Runner where
  writer := { directory := "out" }
  sources := [sampleSource .merge "SITE" "old", sampleSource .override "CLUSTER" "w1",
    sampleSource .nomerge "SPARE" "w2", sampleSource .merge "OWNER" "ops"]

/-- The closed form at four sources: what came before the second is lost, and the third does
nothing. -/
theorem collect_closedForm_sampleRunner :
    ∃ set data, sampleRunner.collect .empty = .ok set ∧ set.get? "web" = some data ∧
      data.get? "CLUSTER" = some (.one (.text "w1")) ∧
      data.get? "OWNER" = some (.one (.text "ops")) ∧
      data.get? "SITE" = none ∧ data.get? "SPARE" = none := by
  have reads : ∀ planned ∈ sampleRunner.sources,
      ∃ added, planned.source.read .empty = .ok added := by
    simp [sampleRunner, sampleSource]
  obtain ⟨set, hset, hclosed⟩ := collect_closedForm sampleRunner reads
  have hbase : IsBase (contributions .empty sampleRunner.sources "web")
      ⟨.override, .ofList [("CLUSTER", .one (.text "w1"))]⟩
      [⟨.nomerge, .ofList [("SPARE", .one (.text "w2"))]⟩,
        ⟨.merge, .ofList [("OWNER", .one (.text "ops"))]⟩] :=
    ⟨[⟨.merge, .ofList [("SITE", .one (.text "old"))]⟩], rfl, .inl rfl, by simp⟩
  obtain ⟨data, hdata, hkeys⟩ := (hclosed "web").2.2 _ _ hbase
  exact ⟨set, data, hset, hdata, (hkeys "CLUSTER").1.trans (by decide +kernel),
    (hkeys "OWNER").1.trans (by decide +kernel), (hkeys "SITE").1.trans (by decide +kernel),
    (hkeys "SPARE").1.trans (by decide +kernel)⟩

end Runner
end ClusterSync
