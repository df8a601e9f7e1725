/-
# What sources make of one cluster

Folding a set into another treats each cluster by itself, by what the two sets have of it
(`ClusterSet.get?_fold`). Many sources in a row therefore come, for one cluster, to a fold of
the contributions of those that have it (`Contribution.onto`).

That fold has a closed form. All that stood before the last contribution that overrides is
lost, and if none overrides the first contribution is the base (`IsBase`); what comes after the
base is laid over it if it merges, and does nothing if it does not (`foldl_onto_of_isBase`).
-/

import ClusterSync.Cluster.Policy
import ClusterSync.Proofs.Table

namespace ClusterSync

/-- The data of a cluster that a source with new data has been met with. -/
def Policy.meet : Policy → Option Attributes → Attributes → Attributes
  | .merge, some old, new => old.overlay new
  | .nomerge, some old, _ => old
  | _, _, new => new

/-- **Folding treats each cluster by itself.** A cluster that is not added stays as it is. -/
theorem ClusterSet.get?_fold (main added : ClusterSet) (policy : Policy) (name : String) :
    (main.fold added policy).get? name =
      match added.get? name with
      | none => main.get? name
      | some data => some (policy.meet (main.get? name) data) := by
  cases policy with
  | merge =>
    change (mergeKeys main added).get? name = _
    rw [mergeKeys, Table.get?_overlay, Table.get?_mapEntries]
    cases added.get? name with
    | none => rfl
    | some data => cases main.get? name <;> rfl
  | override =>
    change (main.overlay added).get? name = _
    rw [Table.get?_overlay]
    cases added.get? name <;> rfl
  | nomerge =>
    rw [fold, newOnly, Table.get?_overlay, Table.get?_filter, Table.contains]
    cases added.get? name with
    | none => rfl
    | some data => cases main.get? name <;> rfl

/-- What a source that has a cluster contributes to it. -/
structure Contribution where
  policy : Policy
  data : Attributes

namespace Contribution

/-- What a contribution makes of the data so far. -/
def onto (old : Option Attributes) (c : Contribution) : Option Attributes :=
  some (c.policy.meet old c.data)

/-- The data of several contributions laid over some data in turn. -/
def overlayAll (data : Attributes) (cs : List Contribution) : Attributes :=
  cs.foldl (fun data c => data.overlay c.data) data

/-- The value that a key has after contributions, if it had one before. -/
def lastValue (key : String) (old : Option Attribute) (cs : List Contribution) :
    Option Attribute :=
  cs.foldl (fun old c => (c.data.get? key).or old) old

theorem get?_overlayAll (data : Attributes) (cs : List Contribution) (key : String) :
    (overlayAll data cs).get? key = lastValue key (data.get? key) cs := by
  induction cs generalizing data with
  | nil => rfl
  | cons c cs ih =>
    rw [lastValue, List.foldl_cons, ← Table.get?_overlay]
    exact ih (data.overlay c.data)

/-- No key is lost, and none is made up. -/
theorem mem_keys_overlayAll {data : Attributes} {cs : List Contribution} {key : String} :
    key ∈ (overlayAll data cs).keys ↔ key ∈ data.keys ∨ ∃ c ∈ cs, key ∈ c.data.keys := by
  induction cs generalizing data with
  | nil => simp [overlayAll]
  | cons c cs ih =>
    rw [overlayAll, List.foldl_cons, ← overlayAll, ih, Table.mem_keys_overlay, or_assoc]
    simp only [List.mem_cons, exists_eq_or_imp]

end Contribution

open Contribution

variable {c base : Contribution} {cs later : List Contribution}

/-- Is this the base of contributions, with those after it? It is the last one that overrides,
or the first one if none does. -/
def IsBase (cs : List Contribution) (base : Contribution) (later : List Contribution) : Prop :=
  ∃ earlier, cs = earlier ++ base :: later ∧ (base.policy = .override ∨ earlier = []) ∧
    ∀ c ∈ later, c.policy ≠ .override

/-- The contributions that are laid over the base. -/
def merging (later : List Contribution) : List Contribution :=
  later.filter fun c => c.policy = .merge

/-- Later contributions that do not override are overlaid if they merge. -/
theorem foldl_onto_some (h : ∀ c ∈ later, c.policy ≠ .override) (data : Attributes) :
    later.foldl onto (some data) =
      some (overlayAll data (merging later)) := by
  induction later generalizing data with
  | nil => rfl
  | cons c cs ih =>
    have hcs := fun x hx => h x (List.mem_cons_of_mem c hx)
    rw [List.foldl_cons, onto]
    cases hp : c.policy with
    | merge =>
      rw [merging, List.filter_cons_of_pos (by simp [hp])]
      exact ih hcs (data.overlay c.data)
    | override => exact absurd hp (h c (List.mem_cons_self ..))
    | nomerge =>
      rw [merging, List.filter_cons_of_neg (by simp [hp])]
      exact ih hcs data

/-- Nothing of what stood before counts for a contribution that overrides. -/
theorem onto_eq_of_override (h : c.policy = .override) (old : Option Attributes) :
    onto old c = some c.data := by
  rw [onto, h]
  cases old <;> rfl

theorem onto_none : onto none c = some c.data := by
  rw [onto]
  cases c.policy <;> rfl

/-- **The closed form of a cluster:** what merges is laid over the base, and nothing else
counts. -/
theorem foldl_onto_of_isBase (h : IsBase cs base later) :
    cs.foldl onto none = some (overlayAll base.data (merging later)) := by
  obtain ⟨earlier, rfl, hbase, hlater⟩ := h
  have hstart : onto (earlier.foldl onto none) base = some base.data := by
    rcases hbase with hover | rfl
    · exact onto_eq_of_override hover _
    · exact onto_none
  rw [List.foldl_append, List.foldl_cons, hstart, foldl_onto_some hlater]

/-- Contributions have a base. -/
theorem exists_isBase (h : cs ≠ []) : ∃ base later, IsBase cs base later := by
  -- By induction, the base of the rest is the base of all if it overrides, and the first
  -- contribution is if none of the rest does.
  induction cs with
  | nil => exact absurd rfl h
  | cons c cs ih =>
    by_cases hover : ∃ x ∈ cs, x.policy = .override
    · obtain ⟨x, hx, hp⟩ := hover
      obtain ⟨base, later, earlier, rfl, hbase, hlater⟩ := ih (List.ne_nil_of_mem hx)
      refine ⟨base, later, c :: earlier, rfl, .inl ?_, hlater⟩
      rcases hbase with hbase | rfl
      · exact hbase
      · rcases List.mem_cons.1 hx with rfl | hx
        · exact hp
        · exact absurd hp (hlater x hx)
    · exact ⟨c, cs, [], rfl, .inr rfl, fun x hx hp => hover ⟨x, hx, hp⟩⟩

end ClusterSync
