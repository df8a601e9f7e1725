/-
# Where each cluster of a publish ends up

A file that is to be replaced is listed as written or as failed, and never as both
(`replaceAll_perm`). What is to be replaced is what has been collected, and a cluster that has
not been collected has failed before. Together the two lists name every cluster of the set
once (`accounts_perm`), but for those that are overlooked.

A cluster is overlooked if its name has a line break and is fine otherwise. It is collected
like any other, and is not found again among the files that have been collected: the name of
a cluster file is one line (`ClusterFile.isName_name_iff`).
-/

import ClusterSync.Proofs.Publish.FinalState

namespace ClusterSync
namespace Publish

open Files

variable {w : Writer} {faults : Faults} {directory scratch : String}
  {set : ClusterSet} {tree after : FileTree} {report : Report}

/-- Is a cluster of this name neither published nor reported? -/
def isOverlooked (cluster : String) : Bool :=
  isStageable cluster && cluster.toList.contains '\n'

/-- Each file is either written or reported. -/
theorem replaceAll_perm {p : Progress} (files : List (String × ByteArray)) :
    ((replaceAll faults directory p files).2.1 ++
      (replaceAll faults directory p files).2.2.map (·.1)).Perm (files.map (·.1)) := by
  induction files generalizing p with
  | nil => exact .refl _
  | cons e rest ih =>
    obtain ⟨file, bytes⟩ := e
    cases h : p.replaceIn directory faults file bytes with
    | mk next result =>
      rw [replaceAll, h]
      cases result with
      | ok _ => exact (ih (p := next)).cons file
      | error e => exact List.perm_middle.trans ((ih (p := next)).cons file)

/-- Two clusters never have one file. -/
theorem nodup_map_name {clusters : List String} (h : clusters.Nodup) :
    (clusters.map ClusterFile.name).Nodup := by
  rw [List.Nodup, List.pairwise_map]
  exact h.imp fun hne heq => hne (ClusterFile.name_inj.1 heq)

/-- The files that have been collected are those of the clusters that are not refused and
whose names are one line. -/
theorem collected_perm (whole : CollectsWhole faults) :
    (collected faults scratch set).keys.Perm ((set.keys.filter fun cluster =>
      !refuses faults cluster && !cluster.toList.contains '\n').map ClusterFile.name) := by
  refine (List.perm_ext_iff_of_nodup (Table.nodup_keys _)
    (nodup_map_name (set.nodup_keys.filter _))).2 fun file => ?_
  rw [Table.mem_keys_iff_exists, List.mem_map]
  constructor
  · rintro ⟨bytes, hbytes⟩
    obtain ⟨cluster, data, hget, rfl, hline, hleft⟩ := get?_collected.1 hbytes
    rw [left?_of_collectsWhole whole, Option.ite_none_left_eq_some, Bool.not_eq_true] at hleft
    refine ⟨cluster, List.mem_filter.2 ⟨Table.mem_keys_iff_exists.2 ⟨data, hget⟩, ?_⟩, rfl⟩
    simp [hleft.1, hline]
  · rintro ⟨cluster, hmem, rfl⟩
    obtain ⟨hkey, hkept⟩ := List.mem_filter.1 hmem
    obtain ⟨data, hget⟩ := Table.mem_keys_iff_exists.1 hkey
    rw [Bool.and_eq_true, Bool.not_eq_true', Bool.not_eq_true', ← Bool.not_eq_true,
      ← Bool.not_eq_true, List.contains_iff_mem] at hkept
    refine ⟨bodyBytes data, get?_collected.2 ⟨cluster, data, hget, rfl, hkept.2, ?_⟩⟩
    rw [left?_of_collectsWhole whole, if_neg hkept.1]

/-- **Every cluster is listed once, unless it is overlooked.** This holds whatever goes wrong by
itself, as long as nothing is left of a file that could not be collected. -/
theorem accounts_perm {p : Progress} (whole : CollectsWhole faults)
    (ok : w.publishUnder faults scratch set tree = (p, .ok report)) :
    (report.written ++ report.failed.map (·.1)).Perm ((set.keys.filter fun cluster =>
      refuses faults cluster || !cluster.toList.contains '\n').map ClusterFile.name) := by
  obtain ⟨dir, hdir⟩ := exists_directory?_of_publishUnder ok
  obtain ⟨-, rfl⟩ := publishUnder_eq_ok hdir ok
  dsimp only
  generalize hsent : replaceAll faults w.directory ⟨tree, []⟩
    (collected faults scratch set).entries = sent
  have hsentPerm : (sent.2.1 ++ sent.2.2.map (·.1)).Perm (collected faults scratch set).keys :=
    hsent ▸ replaceAll_perm _
  have hrefused : (uncollected faults scratch set).map (·.1) =
      (set.keys.filter (refuses faults)).map ClusterFile.name := by
    rw [uncollected, stageAll_failed, Table.keys, List.filter_map, List.map_map]
    rfl
  -- The clusters of the right side are those that are refused and those that are collected.
  have hsplit : ((set.keys.filter fun cluster =>
      refuses faults cluster || !cluster.toList.contains '\n').map ClusterFile.name).Perm
        ((set.keys.filter (refuses faults)).map ClusterFile.name ++
          (set.keys.filter fun cluster =>
            !refuses faults cluster && !cluster.toList.contains '\n').map ClusterFile.name) := by
    rw [← List.map_append]
    refine List.Perm.map _ ((List.filter_append_perm (refuses faults) _).symm.trans ?_)
    rw [List.filter_filter, List.filter_filter]
    refine .of_eq (congr (congrArg _ (List.filter_congr fun c _ => ?_))
      (List.filter_congr fun c _ => ?_))
    · cases refuses faults c <;> simp
    · cases refuses faults c <;> simp
  refine List.Perm.trans ?_ hsplit.symm
  rw [List.map_append, hrefused, ← List.append_assoc]
  refine (List.perm_append_comm.append_right _).trans ?_
  rw [List.append_assoc]
  exact (hsentPerm.trans (collected_perm whole)).append_left _

/-- Where nothing goes wrong by itself, those that are not listed are the overlooked ones. -/
theorem accounts_perm_none (ok : w.publish scratch set tree = (after, .ok report)) :
    (report.written ++ report.failed.map (·.1)).Perm
      ((set.keys.filter fun cluster => !isOverlooked cluster).map ClusterFile.name) := by
  cases hp : w.publishUnder .none scratch set tree with
  | mk p result =>
    rw [Writer.publish, hp] at ok
    obtain ⟨-, rfl⟩ := Prod.mk.inj ok
    refine (accounts_perm collectsWhole_none hp).trans (.of_eq (congrArg _ ?_))
    refine List.filter_congr fun cluster _ => ?_
    rw [isOverlooked, Bool.not_and, refuses]
    exact congrArg (· || _) (Bool.or_false _)

/-- **Each cluster of the set is written or reported, and once, unless it is overlooked**, and
nothing else is. A report without failures therefore means that every cluster went out, but
for those. -/
theorem publish_accounts (ok : w.publish scratch set tree = (after, .ok report)) :
    (∀ cluster ∈ set.keys,
      (report.written ++ report.failed.map (·.1)).count (ClusterFile.name cluster) =
        if isOverlooked cluster then 0 else 1) ∧
    (∀ file ∈ report.written ++ report.failed.map (·.1),
      ∃ cluster ∈ set.keys, isOverlooked cluster = false ∧ file = ClusterFile.name cluster) ∧
    (report.isClean = true → ∀ cluster ∈ set.keys,
      (ClusterFile.name cluster ∈ report.written ↔ isOverlooked cluster = false)) := by
  have hperm := accounts_perm_none ok
  have hlisted : ∀ cluster ∈ set.keys,
      (ClusterFile.name cluster ∈ report.written ++ report.failed.map (·.1) ↔
        isOverlooked cluster = false) := by
    intro cluster hkey
    rw [hperm.mem_iff, List.mem_map]
    constructor
    · rintro ⟨other, hmem, heq⟩
      obtain rfl := ClusterFile.name_inj.1 heq
      simpa using (List.mem_filter.1 hmem).2
    · intro hseen
      exact ⟨cluster, List.mem_filter.2 ⟨hkey, by simp [hseen]⟩, rfl⟩
  refine ⟨fun cluster hkey => ?_, fun file hfile => ?_, fun hclean cluster hkey => ?_⟩
  · have hnd := hperm.nodup_iff.2 (nodup_map_name (set.nodup_keys.filter _))
    rw [hnd.count]
    cases hseen : isOverlooked cluster with
    | true => exact if_neg fun hmem => by simp [(hlisted cluster hkey).1 hmem] at hseen
    | false => exact if_pos ((hlisted cluster hkey).2 hseen)
  · obtain ⟨cluster, hmem, rfl⟩ := List.mem_map.1 (hperm.mem_iff.1 hfile)
    obtain ⟨hkey, hseen⟩ := List.mem_filter.1 hmem
    exact ⟨cluster, hkey, by simpa using hseen, rfl⟩
  · rw [Report.isClean, Bool.and_eq_true, List.isEmpty_iff] at hclean
    rw [← hlisted cluster hkey, hclean.1, List.map_nil, List.append_nil]

/-- A publish of `sampleSet` counts the cluster that goes out and the one that a directory is in
the way of. -/
theorem publish_accounts_sample :
    ∃ after report, sampleWriter.publish "scratch" sampleSet sampleTree = (after, .ok report) ∧
      (report.written ++ report.failed.map (·.1)).count (ClusterFile.name "web") = 1 ∧
      (report.written ++ report.failed.map (·.1)).count (ClusterFile.name "db") = 1 := by
  obtain ⟨after, report, ok⟩ := exists_publish_eq_ok sampleWriter "scratch" sampleSet
    sampleTree_directory?
  have hcount := (publish_accounts ok).1
  exact ⟨after, report, ok, (hcount "web" (by decide +kernel)).trans (by decide +kernel),
    (hcount "db" (by decide +kernel)).trans (by decide +kernel)⟩

/-- A set with one cluster, whose name has a line break. -/
def brokenSet : ClusterSet := .ofList [("a\nb", .ofList [(clusterKey, .one (.text "x"))])]

/-- **A cluster can be lost silently.** The report says that all has been done, and the one
cluster of the set is in neither list. -/
theorem publish_loses_brokenSet :
    ∃ after report, sampleWriter.publish "scratch" brokenSet sampleTree = (after, .ok report) ∧
      report.isClean = true ∧ "a\nb" ∈ brokenSet.keys ∧
      ClusterFile.name "a\nb" ∉ report.written ++ report.failed.map (·.1) := by
  obtain ⟨after, report, ok⟩ := exists_publish_eq_ok sampleWriter "scratch" brokenSet
    sampleTree_directory?
  have hlisted : report.written ++ report.failed.map (·.1) = [] := by
    have hnone : (brokenSet.keys.filter fun cluster => !isOverlooked cluster) = [] := by
      decide +kernel
    have hperm := accounts_perm_none ok
    rw [hnone] at hperm
    exact hperm.eq_nil
  have hdeletes : report.failedDeletes.map (·.1) = [] := by
    have names : sampleTree.HasEntryNames := by decide +kernel
    have hidden : HiddenWritable ["out"] sampleTree brokenSet := by decide +kernel
    have h := published_of_publish names sampleTree_leadsTo hidden ok
    exact List.eq_nil_iff_forall_not_mem.2 fun file hm =>
      ((h.mem_failedDeletes file).1 hm).2.2 rfl
  refine ⟨after, report, ok, ?_, by decide +kernel, by simp [hlisted]⟩
  rw [Report.isClean, Bool.and_eq_true, List.isEmpty_iff, List.isEmpty_iff]
  exact ⟨List.map_eq_nil_iff.1 (List.append_eq_nil_iff.1 hlisted).2,
    List.map_eq_nil_iff.1 hdeletes⟩

end Publish
end ClusterSync
