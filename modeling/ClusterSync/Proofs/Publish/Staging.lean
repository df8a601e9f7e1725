/-
# What is collected for a publish

Collecting the clusters of a set leaves, under the name of each file, what collecting its own
cluster leaves (`left?`), and reports the clusters that cannot be collected (`refuses`), in
the order of the set: `get?_stageAll_entries` and `stageAll_failed`. The clusters do not meet, since
two of them never have one file.

Nothing but the name decides where no write fails by itself: a name that is plain and that
the file system takes is collected in full (`left?_none`). Of what has been collected
only files that are cluster files go out (`get?_stagedFiles`).
-/

import ClusterSync.Proofs.Files.ClusterNames
import ClusterSync.Publish.Writer

namespace ClusterSync
namespace Publish

open Files

variable {faults : Faults} {scratch : String} {staged : Staged} {cluster file : String}
  {data : Attributes} {bytes : ByteArray}

/-- May a cluster of this name be collected? -/
def isStageable (cluster : String) : Bool :=
  ClusterFile.isPlain cluster && (nameError? (ClusterFile.name cluster)).isNone

/-- The bytes that are published for a cluster. -/
def bodyBytes (data : Attributes) : ByteArray := (Attributes.body data).toUTF8

/-- The bytes that collecting a cluster leaves behind, if it leaves any. -/
def left? (faults : Faults) (cluster : String) (data : Attributes) : Option ByteArray :=
  if isStageable cluster then
    match faults.stage (ClusterFile.name cluster) with
    | none => some (bodyBytes data)
    | some torn => torn.left.map (firstBytes (bodyBytes data))
  else none

/-- Is a cluster reported when it is to be collected? -/
def refuses (faults : Faults) (cluster : String) : Bool :=
  !isStageable cluster || (faults.stage (ClusterFile.name cluster)).isSome

theorem isStageable_iff :
    isStageable cluster = true ↔
      cluster ≠ "" ∧ cluster.toList.head? ≠ some '.' ∧ '/' ∉ cluster.toList ∧
        '\\' ∉ cluster.toList ∧ '\x00' ∉ cluster.toList ∧ cluster.utf8ByteSize ≤ 250 := by
  rw [isStageable, Bool.and_eq_true, ClusterFile.isPlain_iff, Option.isNone_iff_eq_none,
    ClusterFile.nameError?_name, and_assoc, and_assoc, and_assoc]

theorem isStageable_of_left? (h : left? faults cluster data = some bytes) :
    isStageable cluster = true := by
  rw [left?, Option.ite_none_right_eq_some] at h
  exact h.1

/-- A cluster that leaves nothing is refused. -/
theorem refuses_of_left?_eq_none (h : left? faults cluster data = none) :
    refuses faults cluster = true := by
  rw [left?] at h
  rw [refuses]
  cases hs : isStageable cluster with
  | false => rfl
  | true =>
    cases hf : faults.stage (ClusterFile.name cluster) with
    | none => simp [hs, hf] at h
    | some torn => rfl

/-- A write that breaks off while files are collected leaves nothing behind. -/
def CollectsWhole (faults : Faults) : Prop :=
  ∀ file torn, faults.stage file = some torn → torn.left = none

theorem collectsWhole_none : CollectsWhole .none := by
  intro file torn h
  cases h

/-- Then a cluster is collected in full or not at all. -/
theorem left?_of_collectsWhole (whole : CollectsWhole faults) :
    left? faults cluster data = if refuses faults cluster then none else some (bodyBytes data) := by
  rw [left?, refuses]
  cases hs : isStageable cluster with
  | false => rfl
  | true =>
    cases hf : faults.stage (ClusterFile.name cluster) with
    | none => rfl
    | some torn => simp [whole _ _ hf]

theorem left?_none :
    left? .none cluster data = if isStageable cluster then some (bodyBytes data) else none := rfl

/-- Collecting one cluster leaves what it leaves, and reports the cluster if it is refused. -/
theorem stageOne_spec :
    (stageOne faults scratch staged cluster data).1 =
        (match left? faults cluster data with
        | none => staged
        | some bytes => staged.insert (ClusterFile.name cluster) bytes) ∧
      (stageOne faults scratch staged cluster data).2.isSome = refuses faults cluster := by
  cases hp : ClusterFile.isPlain cluster with
  | false => simp [stageOne, left?, refuses, isStageable, hp]
  | true =>
    cases hn : nameError? (ClusterFile.name cluster) with
    | some e => simp [stageOne, left?, refuses, isStageable, hp, hn]
    | none =>
      cases hs : faults.stage (ClusterFile.name cluster) with
      | none => simp [stageOne, left?, refuses, isStageable, bodyBytes, hp, hn, hs]
      | some torn =>
        obtain ⟨left, e⟩ := torn
        cases left <;> simp [stageOne, left?, refuses, isStageable, bodyBytes, hp, hn, hs]

theorem stageOne_fst :
    (stageOne faults scratch staged cluster data).1 =
      match left? faults cluster data with
      | none => staged
      | some bytes => staged.insert (ClusterFile.name cluster) bytes := stageOne_spec.1

/-- What is collected depends on no other faults than those of collecting. -/
theorem stageAll_congr {others : Faults} (h : others.stage = faults.stage) (staged : Staged)
    (entries : List (String × Attributes)) :
    stageAll others scratch staged entries = stageAll faults scratch staged entries := by
  induction entries generalizing staged with
  | nil => rfl
  | cons e rest ih => simp only [stageAll, stageOne, h, ih]

/-- A file of none of the clusters is as it was. -/
theorem get?_stageAll_of_forall_ne {entries : List (String × Attributes)}
    (h : ∀ e ∈ entries, ClusterFile.name e.1 ≠ file) :
    (stageAll faults scratch staged entries).1.get? file = staged.get? file := by
  induction entries generalizing staged with
  | nil => rfl
  | cons e es ih =>
    have hne : ClusterFile.name e.1 ≠ file := h e (List.mem_cons_self ..)
    rw [stageAll, ih fun x hx => h x (List.mem_cons_of_mem _ hx), stageOne_fst]
    cases left? faults e.1 e.2 with
    | none => rfl
    | some bytes => exact (Table.get?_insert ..).trans (if_neg hne)

theorem get?_stageAll_of_mem {entries : List (String × Attributes)}
    (hnd : (entries.map (·.1)).Nodup) (hmem : (cluster, data) ∈ entries) :
    (stageAll faults scratch staged entries).1.get? (ClusterFile.name cluster) =
      (left? faults cluster data).or (staged.get? (ClusterFile.name cluster)) := by
  induction entries generalizing staged with
  | nil => exact absurd hmem List.not_mem_nil
  | cons e es ih =>
    obtain ⟨hfresh, hnd⟩ := List.nodup_cons.1 hnd
    rw [stageAll]
    rcases List.mem_cons.1 hmem with rfl | hmem
    · have hlater : ∀ e ∈ es, ClusterFile.name e.1 ≠ ClusterFile.name cluster := fun e he heq =>
        hfresh (List.mem_map.2 ⟨e, he, ClusterFile.name_inj.1 heq⟩)
      rw [get?_stageAll_of_forall_ne hlater, stageOne_fst]
      cases left? faults cluster data with
      | none => rfl
      | some bytes => exact (Table.get?_insert ..).trans (if_pos rfl)
    · have hne : ClusterFile.name e.1 ≠ ClusterFile.name cluster := fun heq =>
        hfresh (List.mem_map.2 ⟨_, hmem, (ClusterFile.name_inj.1 heq).symm⟩)
      rw [ih hnd hmem, stageOne_fst]
      cases left? faults e.1 e.2 with
      | none => rfl
      | some bytes => rw [Table.get?_insert, if_neg hne]

/-- **What is collected of a set:** under each name what its own cluster leaves there. -/
theorem get?_stageAll_entries {set : ClusterSet} :
    (stageAll faults scratch .empty set.entries).1.get? file = some bytes ↔
      ∃ cluster data, set.get? cluster = some data ∧ file = ClusterFile.name cluster ∧
        left? faults cluster data = some bytes := by
  have hnd : (set.entries.map (·.1)).Nodup := set.nodup_keys
  constructor
  · intro h
    by_cases hfile : ∃ e ∈ set.entries, ClusterFile.name e.1 = file
    · obtain ⟨⟨cluster, data⟩, hmem, rfl⟩ := hfile
      rw [get?_stageAll_of_mem hnd hmem, Table.get?_empty, Option.or_none] at h
      exact ⟨cluster, data, Table.mem_entries_iff.1 hmem, rfl, h⟩
    · rw [get?_stageAll_of_forall_ne fun e he heq => hfile ⟨e, he, heq⟩] at h
      simp at h
  · rintro ⟨cluster, data, hget, rfl, hleft⟩
    rw [get?_stageAll_of_mem hnd (Table.mem_entries_iff.2 hget), hleft, Option.some_or]

/-- **Which clusters are reported:** those that are refused, in the order of the set. -/
theorem stageAll_failed (entries : List (String × Attributes)) :
    (stageAll faults scratch staged entries).2.map (·.1) =
      (entries.filter fun e => refuses faults e.1).map fun e => ClusterFile.name e.1 := by
  induction entries generalizing staged with
  | nil => rfl
  | cons e es ih =>
    rw [stageAll, List.map_append, ih]
    have hsome := (@stageOne_spec faults scratch staged e.1 e.2).2
    cases hone : (stageOne faults scratch staged e.1 e.2).2 with
    | none =>
      rw [hone] at hsome
      rw [List.filter_cons_of_neg (by simp [← hsome])]
      rfl
    | some failure =>
      rw [hone] at hsome
      rw [List.filter_cons_of_pos (by simp [← hsome])]
      rfl

theorem mem_stageAll_failed {set : ClusterSet} :
    file ∈ (stageAll faults scratch staged set.entries).2.map (·.1) ↔
      ∃ cluster data, set.get? cluster = some data ∧ file = ClusterFile.name cluster ∧
        refuses faults cluster = true := by
  rw [stageAll_failed, List.mem_map]
  constructor
  · rintro ⟨⟨cluster, data⟩, hmem, rfl⟩
    obtain ⟨hmem, hrefused⟩ := List.mem_filter.1 hmem
    exact ⟨cluster, data, Table.mem_entries_iff.1 hmem, rfl, hrefused⟩
  · rintro ⟨cluster, data, hget, rfl, hrefused⟩
    exact ⟨(cluster, data), List.mem_filter.2 ⟨Table.mem_entries_iff.2 hget, hrefused⟩, rfl⟩

theorem get?_stagedFiles :
    (stagedFiles staged).get? file = some bytes ↔
      staged.get? file = some bytes ∧ ClusterFile.isName file = true := by
  rw [stagedFiles, Table.get?_filter, Option.filter_eq_some_iff]

end Publish
end ClusterSync
