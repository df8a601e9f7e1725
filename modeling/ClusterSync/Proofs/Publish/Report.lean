/-
# What a publish reports, and what it leaves

A publish collects the set, replaces the files that it has collected, and deletes the stale
ones among the cluster files that were there before (`Writer.send_eq`). A file is stale
exactly when it is a plain cluster file whose cluster the set does not have: each cluster of the
set that has a file of its own is collected or reported, and neither kind of file is touched
(`mem_staleFiles`).

The statements hold whatever goes wrong by itself.
-/

import ClusterSync.Proofs.Publish.Sending
import ClusterSync.Proofs.Publish.Staging
import ClusterSync.Proofs.Text

namespace ClusterSync
namespace Publish

open Files

variable {w : Writer} {faults : Faults} {dir : Place} {scratch file : String}
  {staged files : Staged} {set : ClusterSet} {tree : FileTree}

theorem mem_clusterFiles :
    file ∈ clusterFiles tree dir ↔
      (∃ bytes, tree.get? (dir ++ [file]) = some (.file bytes)) ∧
        ClusterFile.isName file = true := by
  rw [clusterFiles, Text.mem_sort, List.mem_filterMap]
  constructor
  · rintro ⟨⟨name, entry⟩, hmem, hsome⟩
    rw [Option.ite_none_right_eq_some, Bool.and_eq_true] at hsome
    obtain ⟨⟨hfile, hname⟩, heq⟩ := hsome
    obtain rfl := Option.some.inj heq
    refine ⟨?_, hname⟩
    cases entry with
    | file bytes => exact ⟨bytes, FileTree.mem_list_iff.1 hmem⟩
    | directory => exact absurd hfile Bool.false_ne_true
    | link target => exact absurd hfile Bool.false_ne_true
  · rintro ⟨⟨bytes, hget⟩, hname⟩
    exact ⟨(file, .file bytes), FileTree.mem_list_iff.2 hget, by simp [hname, Entry.isFile]⟩

theorem sorted_clusterFiles (tree : FileTree) (dir : Place) :
    (clusterFiles tree dir).Pairwise (· < ·) := by
  refine Text.pairwise_lt_sort ?_
  have hnames := List.pairwise_map.1 (FileTree.nodup_list tree dir)
  refine hnames.filterMap _ fun a b hne x hx y hy heq => hne ?_
  rw [Option.ite_none_right_eq_some, Option.some.injEq] at hx hy
  rw [hx.2, hy.2, heq]

/-- What is collected of a set, as far as it is cluster files. -/
def collected (faults : Faults) (scratch : String) (set : ClusterSet) : Staged :=
  stagedFiles (stageAll faults scratch .empty set.entries).1

/-- The files of the clusters that could not be collected, with the reasons. -/
def uncollected (faults : Faults) (scratch : String) (set : ClusterSet) :
    List (String × Failure) :=
  (stageAll faults scratch .empty set.entries).2

theorem get?_collected {bytes : ByteArray} :
    (collected faults scratch set).get? file = some bytes ↔
      ∃ cluster data, set.get? cluster = some data ∧ file = ClusterFile.name cluster ∧
        '\n' ∉ cluster.toList ∧ left? faults cluster data = some bytes := by
  rw [collected, get?_stagedFiles, get?_stageAll_entries]
  constructor
  · rintro ⟨⟨cluster, data, hget, rfl, hleft⟩, hname⟩
    exact ⟨cluster, data, hget, rfl, (ClusterFile.isName_name_iff.1 hname).2, hleft⟩
  · rintro ⟨cluster, data, hget, rfl, hline, hleft⟩
    have hstage := isStageable_iff.1 (isStageable_of_left? hleft)
    exact ⟨⟨cluster, data, hget, rfl, hleft⟩, ClusterFile.isName_name_iff.2 ⟨hstage.1, hline⟩⟩

/-- What cannot be reached in the directory is collected nevertheless. -/
theorem collected_within {reached : String → Bool} :
    collected (faults.within reached) scratch set = collected faults scratch set := by
  have hstage : (faults.within reached).stage = faults.stage := rfl
  rw [collected, collected, stageAll_congr hstage]

theorem uncollected_within {reached : String → Bool} :
    uncollected (faults.within reached) scratch set = uncollected faults scratch set := by
  have hstage : (faults.within reached).stage = faults.stage := rfl
  rw [uncollected, uncollected, stageAll_congr hstage]

/-- Does nothing but plain files stand under the hidden names of a set's files? -/
def HiddenWritable (dir : Place) (tree : FileTree) (set : ClusterSet) : Prop :=
  ∀ cluster ∈ set.keys,
    tree.IsWritable (dir ++ [ClusterFile.hidden (ClusterFile.name cluster)])

instance : Decidable (HiddenWritable dir tree set) :=
  inferInstanceAs (Decidable (∀ cluster ∈ set.keys,
    tree.IsWritable (dir ++ [ClusterFile.hidden (ClusterFile.name cluster)])))

/-- Then all that is collected can go out as far as names go. -/
theorem HiddenWritable.isSendable (hidden : HiddenWritable dir tree set) :
    ∀ e ∈ (collected faults scratch set).entries, IsSendable dir tree e.1 := by
  rintro ⟨file, bytes⟩ hmem
  obtain ⟨cluster, data, hget, rfl, hline, hleft⟩ := get?_collected.1 (Table.mem_entries_iff.1 hmem)
  obtain ⟨hne, -, hslash, -, hzero, hsize⟩ := isStageable_iff.1 (isStageable_of_left? hleft)
  have hname : ClusterFile.isName (ClusterFile.name cluster) = true :=
    ClusterFile.isName_name_iff.2 ⟨hne, hline⟩
  have hbare : IsBare (ClusterFile.name cluster) :=
    ClusterFile.isBare_of_isName hname (by simp [ClusterFile.toList_name, hslash])
  exact ⟨hname, ⟨hbare, ClusterFile.nameError?_name.2 ⟨hzero, hsize⟩⟩,
    hidden cluster ((Table.mem_keys_iff set cluster).2 (hget ▸ rfl))⟩

/-- The cluster files of a directory that are neither among the given ones nor reported. None
are stale if nothing is cleaned up. -/
def staleFiles (w : Writer) (dir : Place) (tree : FileTree) (files : Staged)
    (failed : List String) : List String :=
  if w.clean then
    (clusterFiles tree dir).filter fun file => !files.contains file && !failed.contains file
  else []

theorem sorted_staleFiles (w : Writer) (dir : Place) (tree : FileTree) (files : Staged)
    (failed : List String) : (staleFiles w dir tree files failed).Pairwise (· < ·) := by
  rw [staleFiles]
  split
  · exact (sorted_clusterFiles tree dir).filter _
  · exact .nil

/-- **Sending, step by step.** Cleaning up or not, the files are replaced, and then the stale
ones that are not protected are deleted. -/
theorem Writer.send_eq (failed : List (String × Failure)) :
    w.send faults dir staged failed tree =
      let sent := replaceAll faults w.directory ⟨tree, []⟩ (stagedFiles staged).entries
      let stale := staleFiles w dir tree (stagedFiles staged)
        (failed.map (·.1) ++ sent.2.2.map (·.1))
      let cleared := deleteAll faults w.directory sent.1
        (stale.filter fun file => !w.isProtected file)
      (cleared.1, {
        written := sent.2.1
        failed := failed ++ sent.2.2
        deleted := cleared.2.1
        kept := stale.filter w.isProtected
        failedDeletes := cleared.2.2 }) := by
  cases hclean : w.clean with
  | false => simp [Writer.send, staleFiles, hclean, deleteAll]
  | true =>
    simp [Writer.send, staleFiles, hclean, List.partition_eq_filter_filter, Function.comp_def,
      List.map_append]

/-- Is a file there for a cluster that is gone, and are such files deleted? -/
def IsStale (w : Writer) (set : ClusterSet) (dir : Place) (tree : FileTree) (file : String) :
    Prop :=
  w.clean = true ∧ ∃ cluster bytes, ClusterFile.cluster? file = some cluster ∧
    tree.get? (dir ++ [file]) = some (.file bytes) ∧ set.get? cluster = none

theorem IsStale.isName (h : IsStale w set dir tree file) : ClusterFile.isName file = true := by
  obtain ⟨-, cluster, -, hcluster, -⟩ := h
  rw [ClusterFile.isName, hcluster, Option.isSome_some]

theorem IsStale.plain (h : IsStale w set dir tree file) :
    ∃ bytes, tree.get? (dir ++ [file]) = some (.file bytes) := by
  obtain ⟨-, -, bytes, -, hplain, -⟩ := h
  exact ⟨bytes, hplain⟩

/-- Nothing has been collected or reported for a cluster that is gone. -/
theorem IsStale.get?_eq_none (h : IsStale w set dir tree file) {cluster : String}
    (hname : file = ClusterFile.name cluster) : set.get? cluster = none := by
  obtain ⟨-, gone, -, hcluster, -, hgone⟩ := h
  obtain ⟨hfile, -⟩ := ClusterFile.cluster?_eq_some_iff.1 hcluster
  rwa [← ClusterFile.name_inj.1 (hname.symm.trans hfile)] at hgone

theorem IsStale.not_collected (h : IsStale w set dir tree file) :
    (collected faults scratch set).contains file = false := by
  rw [Bool.eq_false_iff]
  intro hc
  obtain ⟨body, hbody⟩ := Table.contains_iff.1 hc
  obtain ⟨cluster, data, hget, hname, -⟩ := get?_collected.1 hbody
  simp [h.get?_eq_none hname] at hget

/-- A stale file has no place in common with one that is collected. -/
theorem IsStale.ne_collected (h : IsStale w set dir tree file) :
    ∀ e ∈ (collected faults scratch set).entries, file ≠ e.1 := by
  rintro ⟨other, bytes⟩ he rfl
  have hc := Table.contains_iff.2 ⟨bytes, Table.mem_entries_iff.1 he⟩
  rw [h.not_collected] at hc
  exact absurd hc (by simp)

theorem IsStale.not_uncollected (h : IsStale w set dir tree file) :
    file ∉ (uncollected faults scratch set).map (·.1) := by
  intro hm
  obtain ⟨cluster, data, hget, hname, -⟩ := mem_stageAll_failed.1 hm
  simp [h.get?_eq_none hname] at hget

/-- **Stale are the files of clusters that are gone.** What was collected and did not go out
makes no difference. -/
theorem mem_staleFiles {unsent : List String}
    (hunsent : ∀ file ∈ unsent, (collected faults scratch set).contains file = true) :
    file ∈ staleFiles w dir tree (collected faults scratch set)
        ((uncollected faults scratch set).map (·.1) ++ unsent) ↔
      IsStale w set dir tree file := by
  rw [staleFiles, List.mem_ite_nil_right, List.mem_filter, mem_clusterFiles]
  simp only [Bool.and_eq_true, Bool.not_eq_true', List.contains_eq_mem, decide_eq_false_iff_not,
    List.mem_append, not_or]
  constructor
  · rintro ⟨hclean, ⟨⟨bytes, hplain⟩, hname⟩, hfresh, huncollected, -⟩
    obtain ⟨cluster, hcluster⟩ := Option.isSome_iff_exists.1 hname
    refine ⟨hclean, cluster, bytes, hcluster, hplain, ?_⟩
    obtain ⟨rfl, -, hline⟩ := ClusterFile.cluster?_eq_some_iff.1 hcluster
    -- A cluster of the set is collected under this name, or reported under it.
    cases hget : set.get? cluster with
    | none => rfl
    | some data =>
      cases hleft : left? faults cluster data with
      | none =>
        exact absurd (mem_stageAll_failed.2
          ⟨cluster, data, hget, rfl, refuses_of_left?_eq_none hleft⟩) huncollected
      | some body =>
        have hc : (collected faults scratch set).contains (ClusterFile.name cluster) = true :=
          Table.contains_iff.2 ⟨body, get?_collected.2 ⟨cluster, data, hget, rfl, hline, hleft⟩⟩
        rw [hc] at hfresh
        exact absurd hfresh (by simp)
  · intro h
    have hfresh : (collected faults scratch set).contains file = false := h.not_collected
    refine ⟨h.1, ⟨h.plain, h.isName⟩, hfresh, h.not_uncollected, fun hm => ?_⟩
    rw [hunsent file hm] at hfresh
    exact absurd hfresh (by simp)

/-- What a publish leaves, by what was collected. -/
structure Published (w : Writer) (faults : Faults) (scratch : String) (set : ClusterSet)
    (dir : Place) (before after : FileTree) (report : Report) : Prop where
  written_eq : report.written = ((collected faults scratch set).entries.filter fun e =>
    goesOut faults dir before e.1).map (·.1)
  failed_eq : report.failed.map (·.1) = (uncollected faults scratch set).map (·.1) ++
    ((collected faults scratch set).entries.filter fun e =>
      !goesOut faults dir before e.1).map (·.1)
  sorted_deleted : report.deleted.Pairwise (· < ·)
  sorted_kept : report.kept.Pairwise (· < ·)
  mem_deleted : ∀ file, file ∈ report.deleted ↔
    IsStale w set dir before file ∧ w.isProtected file = false ∧ faults.delete file = none
  mem_kept : ∀ file, file ∈ report.kept ↔
    IsStale w set dir before file ∧ w.isProtected file = true
  mem_failedDeletes : ∀ file, file ∈ report.failedDeletes.map (·.1) ↔
    IsStale w set dir before file ∧ w.isProtected file = false ∧ faults.delete file ≠ none
  get?_frame : ∀ place,
    (∀ e ∈ (collected faults scratch set).entries, AvoidsFile dir place e.1) →
    (∀ file ∈ report.deleted, place ≠ dir ++ [file]) → after.get? place = before.get? place
  get?_file : ∀ e ∈ (collected faults scratch set).entries, after.get? (dir ++ [e.1]) =
    if goesOut faults dir before e.1 then some (.file e.2) else before.get? (dir ++ [e.1])
  get?_hidden : ∀ e ∈ (collected faults scratch set).entries,
    nameError? (ClusterFile.hidden e.1) = none →
      goesOut faults dir before e.1 = true ∨ faults.discard e.1 = none →
        after.get? (dir ++ [ClusterFile.hidden e.1]) = none
  get?_deleted : ∀ file ∈ report.deleted, after.get? (dir ++ [file]) = none

/-- A plain cluster file is gone exactly if it is listed as deleted. -/
theorem Published.get?_eq_none_iff {after : FileTree} {report : Report} {bytes : ByteArray}
    (h : Published w faults scratch set dir tree after report)
    (hname : ClusterFile.isName file = true)
    (hplain : tree.get? (dir ++ [file]) = some (.file bytes)) :
    after.get? (dir ++ [file]) = none ↔ file ∈ report.deleted := by
  refine ⟨fun hgone => ?_, h.get?_deleted file⟩
  apply Classical.byContradiction
  intro hkept
  by_cases hours : ∃ e ∈ (collected faults scratch set).entries, file = e.1
  · obtain ⟨e, he, rfl⟩ := hours
    rw [h.get?_file e he] at hgone
    split at hgone
    · cases hgone
    · simp [hplain] at hgone
  · have hsame : after.get? (dir ++ [file]) = tree.get? (dir ++ [file]) := by
      refine h.get?_frame _ (fun e he => ?_) fun other hother heq => ?_
      · exact avoidsFile_of_ne hname fun heq => hours ⟨e, he, heq⟩
      · obtain rfl : file = other := by simpa using heq
        exact hkept hother
    simp [hsame, hplain] at hgone

theorem exists_directory?_of_publishUnder {p : Progress} {report : Report}
    (h : w.publishUnder faults scratch set tree = (p, .ok report)) :
    ∃ dir, tree.directory? w.directory = some dir := by
  cases hdir : tree.directory? w.directory with
  | none => simp [Writer.publishUnder, hdir] at h
  | some dir => exact ⟨dir, rfl⟩

/-- A publish that ends well sends what it has collected. -/
theorem publishUnder_eq_ok {p : Progress} {report : Report}
    (hdir : tree.directory? w.directory = some dir)
    (h : w.publishUnder faults scratch set tree = (p, .ok report)) :
    let sent := replaceAll faults w.directory ⟨tree, []⟩ (collected faults scratch set).entries
    let stale := staleFiles w dir tree (collected faults scratch set)
      ((uncollected faults scratch set).map (·.1) ++ sent.2.2.map (·.1))
    let cleared := deleteAll faults w.directory sent.1
      (stale.filter fun file => !w.isProtected file)
    p = cleared.1 ∧ report = {
      written := sent.2.1
      failed := uncollected faults scratch set ++ sent.2.2
      deleted := cleared.2.1
      kept := stale.filter w.isProtected
      failedDeletes := cleared.2.2 } := by
  rw [Writer.publishUnder, hdir] at h
  dsimp only at h
  split at h
  · simp at h
  · split at h
    · simp at h
    · simp at h
    · rw [Writer.send_eq] at h
      obtain ⟨hp, hreport⟩ := Prod.mk.inj h
      exact ⟨hp.symm, (Except.ok.inj hreport).symm⟩

/-- What did not go out was collected. -/
theorem Replaced.contains_of_failed {after : FileTree} {written failed : List String}
    (h : Replaced faults dir tree files.entries after written failed) :
    ∀ file ∈ failed, files.contains file = true := by
  intro file hm
  rw [h.failed_eq] at hm
  obtain ⟨⟨_, bytes⟩, he, rfl⟩ := List.mem_map.1 hm
  exact Table.contains_iff.2 ⟨bytes, Table.mem_entries_iff.1 (List.mem_filter.1 he).1⟩

/-- Stale files are still there when they are to be deleted, and can be as far as names go. -/
theorem Replaced.cleared {others : Faults} {p : Progress} {written failed gone : List String}
    (h : Replaced others dir tree (collected faults scratch set).entries p.tree written failed)
    (names : tree.HasEntryNames) (hnd : gone.Nodup)
    (hgone : ∀ file ∈ gone, IsStale w set dir tree file)
    (hreach : ∀ place, p.tree.directory? w.directory = some place → place = dir) :
    HoldsWithin p.tree w.directory dir gone fun reached =>
      Cleared (faults.within reached) dir p.tree gone (deleteAll faults w.directory p gone).1.tree
        (deleteAll faults w.directory p gone).2.1
        ((deleteAll faults w.directory p gone).2.2.map (·.1)) := by
  refine cleared_deleteAll faults hnd (fun file hm => ?_) (fun file hm => ?_) hreach
  · obtain ⟨bytes, hplain⟩ := (hgone file hm).plain
    exact names _ _ hplain file (by simp)
  · obtain ⟨bytes, hplain⟩ := (hgone file hm).plain
    refine ⟨bytes, (h.get?_frame _ fun e he => ?_).trans hplain⟩
    exact avoidsFile_of_ne (hgone file hm).isName ((hgone file hm).ne_collected e he)

/-- What is left once files have been replaced and the stale ones deleted. -/
theorem published_of_cleared {sent after : FileTree} {stale unsent : List String}
    {report : Report}
    (hrep : Replaced faults dir tree (collected faults scratch set).entries sent report.written
      unsent)
    (hfailed : report.failed.map (·.1) = (uncollected faults scratch set).map (·.1) ++ unsent)
    (hsorted : stale.Pairwise (· < ·)) (hstale : ∀ file, file ∈ stale ↔ IsStale w set dir tree file)
    (hkept : report.kept = stale.filter w.isProtected)
    (hcleared : Cleared faults dir sent (stale.filter fun file => !w.isProtected file) after
      report.deleted (report.failedDeletes.map (·.1))) :
    Published w faults scratch set dir tree after report := by
  have hdeleted : ∀ file, file ∈ report.deleted ↔ IsStale w set dir tree file ∧
      w.isProtected file = false ∧ faults.delete file = none := by
    intro file
    rw [hcleared.deleted_eq, List.mem_filter, List.mem_filter, hstale, Bool.not_eq_true',
      Option.isNone_iff_eq_none, and_assoc]
  have hspared : ∀ place, (∀ file ∈ report.deleted, place ≠ dir ++ [file]) →
      after.get? place = sent.get? place := by
    intro place hplace
    rw [hcleared.get?_eq, if_neg]
    rintro ⟨file, hm, heq⟩
    exact hplace file hm heq
  refine ⟨hrep.written_eq, ?_, ?_, hkept ▸ hsorted.filter _, hdeleted, ?_, ?_, ?_, ?_, ?_, ?_⟩
  · rw [hfailed, hrep.failed_eq]
  · rw [hcleared.deleted_eq]
    exact (hsorted.filter _).filter _
  · intro file
    rw [hkept, List.mem_filter, hstale]
  · intro file
    rw [hcleared.failed_eq, List.mem_filter, List.mem_filter, hstale, Bool.not_eq_true',
      Option.isSome_iff_ne_none, and_assoc]
  · intro place hfiles hplace
    rw [hspared place hplace, hrep.get?_frame place hfiles]
  · intro e he
    rw [hspared, hrep.get?_file e he]
    intro file hm
    simpa using (((hdeleted file).1 hm).1.ne_collected e he).symm
  · intro e he hn hd
    rw [hspared, hrep.get?_hidden e he hn hd]
    intro file hm
    simpa using ClusterFile.hidden_ne_of_isName ((hdeleted file).1 hm).1.isName
  · intro file hm
    rw [hcleared.get?_eq, if_pos ⟨file, hm, rfl⟩]

/-- **What a publish leaves**, told with the files that the path of the writer still reaches at
their turn. The hidden places of the set's files must be ones that can be written, and the tree
one that a file system can hold. -/
theorem published_of_publishUnder {p : Progress} {report : Report}
    (names : tree.HasEntryNames) (hdir : tree.directory? w.directory = some dir)
    (hidden : HiddenWritable dir tree set)
    (h : w.publishUnder faults scratch set tree = (p, .ok report)) :
    ∃ reached : String → Bool, (tree.LeadsTo w.directory dir → ∀ file, reached file = true) ∧
      Published w (faults.within reached) scratch set dir tree p.tree report := by
  obtain ⟨rfl, rfl⟩ := publishUnder_eq_ok hdir h
  have hsendable : ∀ e ∈ (collected faults scratch set).entries, IsSendable dir tree e.1 :=
    hidden.isSendable
  have hsent := exists_replacements (p := ⟨tree, []⟩) faults
    (collected faults scratch set).nodup_keys hsendable
    fun place hplace => Option.some.inj (hplace.symm.trans hdir)
  generalize replaceAll faults w.directory ⟨tree, []⟩
    (collected faults scratch set).entries = sent at hsent ⊢
  have hreplaced : ∀ {others : Faults} {log},
      Replacements others dir tree (collected faults scratch set).entries log sent.1.tree sent.2.1
        (sent.2.2.map (·.1)) →
      Replaced others dir tree (collected faults scratch set).entries sent.1.tree sent.2.1
        (sent.2.2.map (·.1)) :=
    fun hsteps => hsteps.replaced (collected faults scratch set).nodup_keys
      fun e he => (hsendable e he).isName
  obtain ⟨first, -, log, -, hsteps⟩ := hsent.exists_reached
  have hrep := hreplaced hsteps
  have hstale : ∀ file, file ∈ staleFiles w dir tree (collected faults scratch set)
      ((uncollected faults scratch set).map (·.1) ++ sent.2.2.map (·.1)) ↔
        IsStale w set dir tree file := fun _ => mem_staleFiles hrep.contains_of_failed
  have hsorted := sorted_staleFiles w dir tree (collected faults scratch set)
    ((uncollected faults scratch set).map (·.1) ++ sent.2.2.map (·.1))
  generalize staleFiles w dir tree (collected faults scratch set)
    ((uncollected faults scratch set).map (·.1) ++ sent.2.2.map (·.1)) = stale at hstale hsorted ⊢
  have hnd : stale.Nodup := hsorted.imp Std.ne_of_lt
  have hgone : ∀ file ∈ stale.filter fun file => !w.isProtected file,
      IsStale w set dir tree file := fun file hm => (hstale file).1 (List.mem_filter.1 hm).1
  have hcleared := hrep.cleared (w := w) names (hnd.filter fun file => !w.isProtected file) hgone
    fun place hplace => Option.some.inj
      ((FileTree.directory?_of_onlyWaysOf hsteps.onlyWaysOf hplace).symm.trans hdir)
  -- The files that are replaced and those that are deleted are told apart by their names.
  obtain ⟨reached, hall, ⟨log, -, hsteps⟩, hcleared⟩ := (hsent.and hcleared
    (fun hleads => hleads.of_sameAround hsteps.sameAround) fun file hm hkey => by
      obtain ⟨e, he, heq⟩ := List.mem_map.1 hkey
      exact (hgone file hm).ne_collected e he heq.symm).exists_reached
  have hrep' : Replaced (faults.within reached) dir tree
      (collected (faults.within reached) scratch set).entries sent.1.tree sent.2.1
      (sent.2.2.map (·.1)) := by
    rw [collected_within]
    exact hreplaced hsteps
  refine ⟨reached, hall, published_of_cleared hrep' ?_ hsorted hstale rfl hcleared⟩
  rw [uncollected_within, List.map_append]

/-- All files are reached by a path that comes to the directory from outside. -/
theorem published_of_leadsTo {p : Progress} {report : Report}
    (names : tree.HasEntryNames) (target : tree.LeadsTo w.directory dir)
    (hidden : HiddenWritable dir tree set)
    (h : w.publishUnder faults scratch set tree = (p, .ok report)) :
    Published w faults scratch set dir tree p.tree report := by
  obtain ⟨reached, hall, hpublished⟩ := published_of_publishUnder names target.directory? hidden h
  rwa [Faults.within_of_forall (hall target)] at hpublished

end Publish
end ClusterSync
