/-
# Sets that are put together beforehand, or in another order

Since folding treats each cluster by itself, its laws are those of what it does to one cluster
(`Policy.meet?`). Under one policy that is associative (`Policy.meet?_assoc`): where both sides have
the cluster, `merge` lays them over one another, `override` keeps the last and `nomerge` the first.
So the sources of a run that share a policy may be put together before they are added
(`ClusterSet.foldl_fold`).

Two sets without a cluster in common may be added in either order, whatever their policies, as no
cluster meets both. Overriding one set with another is adding the first to the second where it has
something new. `ClusterSet.fold_laws` has all of these.
-/

import ClusterSync.Proofs.Cluster.Folding

namespace ClusterSync

/-! ### One cluster -/

/-- The data of a cluster after a set has been added that may have it. -/
def Policy.meet? (policy : Policy) (old : Option Attributes) : Option Attributes → Option Attributes
  | none => old
  | some new => some (policy.meet old new)

theorem ClusterSet.get?_fold_eq (main added : ClusterSet) (policy : Policy) (name : String) :
    (main.fold added policy).get? name = policy.meet? (main.get? name) (added.get? name) := by
  rw [get?_fold]
  cases added.get? name <;> rfl

/-- A cluster that only the added set has is taken as it is. -/
theorem Policy.meet?_none_left (policy : Policy) (new : Option Attributes) :
    policy.meet? none new = new := by
  cases new with
  | none => rfl
  | some new => cases policy <;> rfl

/-- **Under one policy it does not matter what meets first.** -/
theorem Policy.meet?_assoc (policy : Policy) (a b c : Option Attributes) :
    policy.meet? (policy.meet? a b) c = policy.meet? a (policy.meet? b c) := by
  cases b with
  | none => rw [meet?_none_left]; rfl
  | some b =>
    cases c with
    | none => rfl
    | some c =>
      cases a with
      | none => rw [meet?_none_left, meet?_none_left]
      | some a =>
        cases policy with
        | merge => exact congrArg some (Table.overlay_assoc a b c)
        | override => rfl
        | nomerge => rfl

theorem Policy.meet?_override (a b : Option Attributes) :
    Policy.override.meet? a b = Policy.nomerge.meet? b a := by
  cases a <;> cases b <;> rfl

/-! ### Sets -/

namespace ClusterSet

variable {main b c : ClusterSet}

theorem fold_assoc (main b c : ClusterSet) (policy : Policy) :
    (main.fold b policy).fold c policy = main.fold (b.fold c policy) policy := by
  refine Table.ext_get? fun name => ?_
  simp only [get?_fold_eq]
  exact policy.meet?_assoc _ _ _

/-- **A run of sets with one policy may be put together first.** The induction is on the run, behind
the set that it begins with. -/
theorem foldl_fold (main first : ClusterSet) (run : List ClusterSet) (policy : Policy) :
    run.foldl (fun set added => set.fold added policy) (main.fold first policy) =
      main.fold (run.foldl (fun set added => set.fold added policy) first) policy := by
  induction run generalizing first with
  | nil => rfl
  | cons next run ih => rw [List.foldl_cons, List.foldl_cons, fold_assoc, ih]

/-- Sets without a cluster in common may be added in either order. -/
theorem fold_comm (apart : ∀ name ∈ b.keys, name ∉ c.keys) (main : ClusterSet) (p q : Policy) :
    (main.fold b p).fold c q = (main.fold c q).fold b p := by
  refine Table.ext_get? fun name => ?_
  simp only [get?_fold_eq]
  by_cases hb : name ∈ b.keys
  · rw [Table.not_mem_keys_iff.1 (apart name hb)]
    rfl
  · rw [Table.not_mem_keys_iff.1 hb]
    rfl

theorem fold_override (main added : ClusterSet) :
    main.fold added .override = added.fold main .nomerge := by
  refine Table.ext_get? fun name => ?_
  rw [get?_fold_eq, get?_fold_eq, Policy.meet?_override]

/-- **How sets may be regrouped and reordered.** Under one policy sets may be put together before
they are added, two of them or a whole run. Sets that have no cluster in common may be added in
either order, each by a policy of its own. Overriding a set is adding it to the other one where it
has something new. -/
theorem fold_laws (main b c : ClusterSet) (p q : Policy) :
    (main.fold b p).fold c p = main.fold (b.fold c p) p ∧
    (∀ run : List ClusterSet,
      run.foldl (fun set added => set.fold added p) (main.fold b p) =
        main.fold (run.foldl (fun set added => set.fold added p) b) p) ∧
    ((∀ name ∈ b.keys, name ∉ c.keys) →
      (main.fold b p).fold c q = (main.fold c q).fold b p) ∧
    main.fold b .override = b.fold main .nomerge := by
  refine ⟨fold_assoc main b c p, fun run => foldl_fold main b run p, fun apart => ?_, ?_⟩
  · exact fold_comm apart main p q
  · exact fold_override main b

/-- A set with one cluster that has one key. -/
def single (name key value : String) : ClusterSet :=
  .ofList [(name, .ofList [(key, .one (.text value))])]

/-- A new key of a cluster, and a set that overrides another cluster. -/
theorem fold_laws_single :
    (∀ name ∈ (single "web" "OWNER" "ops").keys, name ∉ (single "db" "CLUSTER" "d2").keys) ∧
      (((single "web" "CLUSTER" "w1").fold (single "web" "OWNER" "ops") .merge).fold
          (single "db" "CLUSTER" "d2") .override =
        ((single "web" "CLUSTER" "w1").fold (single "db" "CLUSTER" "d2") .override).fold
          (single "web" "OWNER" "ops") .merge) := by
  have apart : ∀ name ∈ (single "web" "OWNER" "ops").keys,
      name ∉ (single "db" "CLUSTER" "d2").keys := by decide +kernel
  exact ⟨apart, (fold_laws (single "web" "CLUSTER" "w1") _ _ .merge .override).2.2.1 apart⟩

/-- With a cluster in common the order counts, even under one policy. -/
example : ((single "web" "CLUSTER" "w1").fold (single "web" "CLUSTER" "w2") .merge).fold
      (single "web" "CLUSTER" "w3") .merge ≠
    ((single "web" "CLUSTER" "w1").fold (single "web" "CLUSTER" "w3") .merge).fold
      (single "web" "CLUSTER" "w2") .merge := by
  decide +kernel

end ClusterSet
end ClusterSync
