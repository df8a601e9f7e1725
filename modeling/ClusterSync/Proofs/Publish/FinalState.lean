/-
# The directory after a publish

Five kinds of names meet in a publish: those of the set, those that can be collected, those
that can go out, those of the files that are there, and the protected ones. What has become of
each is told here from the set and the tree before alone.

| entry of the directory | afterwards |
| --- | --- |
| file of a publishable cluster of the set, no directory in its place | the body of the cluster |
| hidden file of a publishable cluster of the set | gone |
| plain cluster file, its cluster not in the set, cleaning up, not protected | gone |
| anything else | as it was |

The path of the writer must come to the directory from outside (`FileTree.LeadsTo`).

A cluster is publishable by its name alone (`IsPublishable`). The name of a file has five bytes
more and its hidden name eight more than that, which leaves 242 of 255 bytes.
-/

import ClusterSync.Proofs.Publish.Report

namespace ClusterSync
namespace Publish

open Files

variable {w : Writer} {dir : Place} {scratch cluster : String} {set : ClusterSet}
  {tree after : FileTree} {report : Report}

/-- A cluster name that files can be published under. -/
structure IsPublishable (cluster : String) : Prop where
  ne_empty : cluster ≠ ""
  noSlash : '/' ∉ cluster.toList
  noBackslash : '\\' ∉ cluster.toList
  noZero : '\x00' ∉ cluster.toList
  oneLine : '\n' ∉ cluster.toList
  visible : cluster.toList.head? ≠ some '.'
  short : cluster.utf8ByteSize ≤ 242

/-- A publishable cluster is collected, as a cluster file, and its hidden name is allowed. -/
theorem isPublishable_iff :
    IsPublishable cluster ↔ isStageable cluster = true ∧ '\n' ∉ cluster.toList ∧
      nameError? (ClusterFile.hidden (ClusterFile.name cluster)) = none := by
  have hsize : (ClusterFile.name cluster).utf8ByteSize = cluster.utf8ByteSize + 5 :=
    String.utf8ByteSize_append
  rw [isStageable_iff, ClusterFile.nameError?_hidden, ClusterFile.toList_name, hsize]
  constructor
  · rintro ⟨hne, hslash, hback, hzero, hline, hdot, hshort⟩
    exact ⟨⟨hne, hdot, hslash, hback, hzero, by omega⟩, hline, by simp [hzero], by omega⟩
  · rintro ⟨⟨hne, hdot, hslash, hback, hzero, -⟩, hline, -, hshort⟩
    exact ⟨hne, hslash, hback, hzero, hline, hdot, by omega⟩

/-- What is collected where no write fails by itself. -/
theorem get?_collected_none {file : String} {bytes : ByteArray} :
    (collected .none scratch set).get? file = some bytes ↔
      ∃ cluster data, set.get? cluster = some data ∧ file = ClusterFile.name cluster ∧
        '\n' ∉ cluster.toList ∧ isStageable cluster = true ∧ bodyBytes data = bytes := by
  rw [get?_collected]
  simp only [left?_none, Option.ite_none_right_eq_some,
    Option.some.injEq]

/-- A publish into a directory ends well where nothing goes wrong by itself. -/
theorem exists_publish_eq_ok (w : Writer) (scratch : String) (set : ClusterSet)
    (target : tree.directory? w.directory = some dir) :
    ∃ after report, w.publish scratch set tree = (after, .ok report) := by
  rw [Writer.publish, Writer.publishUnder, target]
  exact ⟨_, _, rfl⟩

theorem goesOut_none {file : String} :
    goesOut .none dir tree file = true ↔
      nameError? (ClusterFile.hidden file) = none ∧
        tree.get? (dir ++ [file]) ≠ some .directory := by
  rw [goesOut_iff]
  exact ⟨fun h => h.2.2, fun h => ⟨rfl, rfl, h⟩⟩

theorem isStale_iff {file : String} {bytes : ByteArray}
    (hcluster : ClusterFile.cluster? file = some cluster)
    (hplain : tree.get? (dir ++ [file]) = some (.file bytes)) :
    IsStale w set dir tree file ↔ w.clean = true ∧ cluster ∉ set.keys := by
  rw [IsStale, Table.not_mem_keys_iff]
  refine and_congr_right fun _ => ⟨?_, fun hgone => ⟨cluster, bytes, hcluster, hplain, hgone⟩⟩
  rintro ⟨other, -, hother, -, hgone⟩
  rwa [Option.some.inj (hcluster.symm.trans hother)]

namespace Published

variable (h : Published w .none scratch set dir tree after report)

include h

theorem sorted_written : report.written.Pairwise (· < ·) := by
  rw [h.written_eq, List.pairwise_map]
  exact (collected .none scratch set).sorted.filter _

theorem mem_written {file : String} :
    file ∈ report.written ↔ ∃ cluster ∈ set.keys, IsPublishable cluster ∧
      file = ClusterFile.name cluster ∧ tree.get? (dir ++ [file]) ≠ some .directory := by
  rw [h.written_eq, List.mem_map]
  constructor
  · rintro ⟨⟨_, bytes⟩, hmem, rfl⟩
    obtain ⟨hmem, hgoes⟩ := List.mem_filter.1 hmem
    obtain ⟨hn, hdir⟩ := goesOut_none.1 hgoes
    obtain ⟨cluster, data, hget, rfl, hline, hstage, -⟩ :=
      get?_collected_none.1 (Table.mem_entries_iff.1 hmem)
    exact ⟨cluster, Table.mem_keys_iff_exists.2 ⟨data, hget⟩,
      isPublishable_iff.2 ⟨hstage, hline, hn⟩, rfl, hdir⟩
  · rintro ⟨cluster, hkey, hpub, rfl, hdir⟩
    obtain ⟨data, hget⟩ := Table.mem_keys_iff_exists.1 hkey
    obtain ⟨hstage, hline, hn⟩ := isPublishable_iff.1 hpub
    refine ⟨(_, bodyBytes data), List.mem_filter.2 ⟨?_, goesOut_none.2 ⟨hn, hdir⟩⟩, rfl⟩
    exact Table.mem_entries_iff.2
      (get?_collected_none.2 ⟨cluster, data, hget, rfl, hline, hstage, rfl⟩)

/-- What is published under a name that has been written. -/
theorem get?_written {data : Attributes} (hget : set.get? cluster = some data)
    (hmem : ClusterFile.name cluster ∈ report.written) :
    after.get? (dir ++ [ClusterFile.name cluster]) = some (.file (bodyBytes data)) := by
  rw [h.written_eq, List.mem_map] at hmem
  obtain ⟨⟨file, bytes⟩, hmem, hfile⟩ := hmem
  obtain ⟨hmem, hgoes⟩ := List.mem_filter.1 hmem
  obtain ⟨other, odata, hoget, rfl, -, -, rfl⟩ :=
    get?_collected_none.1 (Table.mem_entries_iff.1 hmem)
  obtain rfl := ClusterFile.name_inj.1 hfile
  obtain rfl := Option.some.inj (hget.symm.trans hoget)
  rw [h.get?_file _ hmem, if_pos hgoes]

theorem get?_hidden_of_isPublishable (hkey : cluster ∈ set.keys) (hpub : IsPublishable cluster) :
    after.get? (dir ++ [ClusterFile.hidden (ClusterFile.name cluster)]) = none := by
  obtain ⟨data, hget⟩ := Table.mem_keys_iff_exists.1 hkey
  obtain ⟨hstage, hline, hn⟩ := isPublishable_iff.1 hpub
  refine h.get?_hidden (_, bodyBytes data) (Table.mem_entries_iff.2 ?_) hn (.inr rfl)
  exact get?_collected_none.2 ⟨cluster, data, hget, rfl, hline, hstage, rfl⟩

/-- A place where no file has been written or deleted, and none of the set can be hidden, is as
it was. -/
theorem get?_of_forall_ne {place : Place}
    (hwritten : ∀ file ∈ report.written, place ≠ dir ++ [file])
    (hdeleted : ∀ file ∈ report.deleted, place ≠ dir ++ [file])
    (hhidden : ∀ cluster ∈ set.keys, IsPublishable cluster →
      place ≠ dir ++ [ClusterFile.hidden (ClusterFile.name cluster)]) :
    after.get? place = tree.get? place := by
  by_cases hfile : ∃ e ∈ (collected .none scratch set).entries, place = dir ++ [e.1]
  · obtain ⟨e, he, rfl⟩ := hfile
    rw [h.get?_file e he, if_neg]
    intro hgoes
    refine hwritten e.1 ?_ rfl
    rw [h.written_eq]
    exact List.mem_map.2 ⟨e, List.mem_filter.2 ⟨he, hgoes⟩, rfl⟩
  · refine h.get?_frame place (fun e he => ⟨fun heq => hfile ⟨e, he, heq⟩, fun hn => ?_⟩) hdeleted
    obtain ⟨cluster, data, hget, hname, hline, hstage, -⟩ :=
      get?_collected_none.1 (Table.mem_entries_iff.1 he)
    rw [hname] at hn ⊢
    exact hhidden cluster (Table.mem_keys_iff_exists.2 ⟨data, hget⟩)
      (isPublishable_iff.2 ⟨hstage, hline, hn⟩)

/-- The file of a cluster that the set does not have is as it was, unless it is deleted. -/
theorem get?_name_of_not_mem (hkey : cluster ∉ set.keys)
    (hkept : ClusterFile.name cluster ∉ report.deleted) :
    after.get? (dir ++ [ClusterFile.name cluster]) =
      tree.get? (dir ++ [ClusterFile.name cluster]) := by
  refine h.get?_of_forall_ne (fun file hfile heq => ?_) (fun file hfile heq => ?_) fun c _ _ => ?_
  · obtain ⟨other, hother, -, rfl, -⟩ := h.mem_written.1 hfile
    obtain rfl : cluster = other := by simpa using heq
    exact hkey hother
  · obtain rfl : ClusterFile.name cluster = file := by simpa using heq
    exact hkept hfile
  · simpa using (ClusterFile.hidden_ne_name (ClusterFile.name c) cluster).symm

end Published

theorem published_of_publish (names : tree.HasEntryNames)
    (target : tree.LeadsTo w.directory dir) (hidden : HiddenWritable dir tree set)
    (ok : w.publish scratch set tree = (after, .ok report)) :
    Published w .none scratch set dir tree after report := by
  cases hp : w.publishUnder .none scratch set tree with
  | mk p result =>
    rw [Writer.publish, hp] at ok
    obtain ⟨rfl, rfl⟩ := Prod.mk.inj ok
    exact published_of_leadsTo names target hidden hp

/-- The directory after a publish, told from the set and the tree before. -/
structure FinalState (w : Writer) (set : ClusterSet) (dir : Place) (before after : FileTree)
    (report : Report) : Prop where
  /-- Each list is in order and names no file twice. -/
  sorted_written : report.written.Pairwise (· < ·)
  sorted_deleted : report.deleted.Pairwise (· < ·)
  sorted_kept : report.kept.Pairwise (· < ·)
  mem_written : ∀ file, file ∈ report.written ↔ ∃ cluster ∈ set.keys, IsPublishable cluster ∧
    file = ClusterFile.name cluster ∧ before.get? (dir ++ [file]) ≠ some .directory
  /-- A file that has been written holds the body of its cluster. -/
  get?_written : ∀ cluster data, set.get? cluster = some data →
    ClusterFile.name cluster ∈ report.written →
      after.get? (dir ++ [ClusterFile.name cluster]) =
        some (.file (Attributes.body data).toUTF8)
  /-- A plain cluster file is removed and listed, or listed as protected, exactly if it has to. -/
  removed_iff : ∀ file cluster bytes, ClusterFile.cluster? file = some cluster →
    before.get? (dir ++ [file]) = some (.file bytes) →
      (after.get? (dir ++ [file]) = none ↔
        w.clean = true ∧ cluster ∉ set.keys ∧ w.isProtected file = false) ∧
      (file ∈ report.deleted ↔
        w.clean = true ∧ cluster ∉ set.keys ∧ w.isProtected file = false) ∧
      (file ∈ report.kept ↔
        w.clean = true ∧ cluster ∉ set.keys ∧ w.isProtected file = true)
  /-- Nothing but plain cluster files is listed so. -/
  plain_of_mem : ∀ file, file ∈ report.deleted ∨ file ∈ report.kept →
    ∃ cluster bytes, ClusterFile.cluster? file = some cluster ∧
      before.get? (dir ++ [file]) = some (.file bytes)
  /-- Nothing is left under the hidden names. -/
  get?_hidden : ∀ cluster ∈ set.keys, IsPublishable cluster →
    after.get? (dir ++ [ClusterFile.hidden (ClusterFile.name cluster)]) = none
  /-- Everything else is as it was. -/
  get?_frame : ∀ place, (∀ file ∈ report.written, place ≠ dir ++ [file]) →
    (∀ file ∈ report.deleted, place ≠ dir ++ [file]) →
    (∀ cluster ∈ set.keys, IsPublishable cluster →
      place ≠ dir ++ [ClusterFile.hidden (ClusterFile.name cluster)]) →
      after.get? place = before.get? place

/-- **The final state of a publish.** The tree may hold files, directories and links as it
likes, and the writer may or may not clean up, with any files protected. The path of the writer
leads to the directory from outside: one through a link of the directory is cut off when a file
takes the place of the link, and what is still to be done then fails. Under the hidden names
of the set's files there must be nothing or a plain file: what is written there would otherwise
go where a link leads. -/
theorem publish_finalState (names : tree.HasEntryNames)
    (target : tree.LeadsTo w.directory dir) (hidden : HiddenWritable dir tree set)
    (ok : w.publish scratch set tree = (after, .ok report)) :
    FinalState w set dir tree after report := by
  have h := published_of_publish names target hidden ok
  refine ⟨h.sorted_written, h.sorted_deleted, h.sorted_kept, fun _ => h.mem_written,
    fun _ _ => h.get?_written, ?_, ?_, fun _ => h.get?_hidden_of_isPublishable,
    fun _ => h.get?_of_forall_ne⟩
  · intro file cluster bytes hcluster hplain
    have hname : ClusterFile.isName file = true := by
      rw [ClusterFile.isName, hcluster, Option.isSome_some]
    have hstale : IsStale w set dir tree file ↔ w.clean = true ∧ cluster ∉ set.keys :=
      isStale_iff hcluster hplain
    have hdeleted : file ∈ report.deleted ↔
        w.clean = true ∧ cluster ∉ set.keys ∧ w.isProtected file = false := by
      rw [h.mem_deleted, hstale, and_assoc]
      constructor
      · rintro ⟨hclean, hgone, hfree, -⟩
        exact ⟨hclean, hgone, hfree⟩
      · rintro ⟨hclean, hgone, hfree⟩
        exact ⟨hclean, hgone, hfree, rfl⟩
    refine ⟨(h.get?_eq_none_iff hname hplain).trans hdeleted, hdeleted, ?_⟩
    rw [h.mem_kept, hstale, and_assoc]
  · intro file hm
    have hstale : IsStale w set dir tree file :=
      hm.elim (fun hd => ((h.mem_deleted file).1 hd).1) fun hk => ((h.mem_kept file).1 hk).1
    obtain ⟨-, cluster, bytes, hcluster, hplain, -⟩ := hstale
    exact ⟨cluster, bytes, hcluster, hplain⟩

/-- A directory with a file, a directory, a link and a hidden file that a publish was
interrupted at. -/
def sampleTree : FileTree := .ofList [
  (["out"], .directory),
  (["out", ".web.yaml.rngsyn"], .file "CLUS".toUTF8),
  (["out", "db.yaml"], .directory),
  (["out", "old.yaml"], .file "CLUSTER: o1\n".toUTF8),
  (["out", "version.yaml"], .file "CLUSTER: 7\n".toUTF8),
  (["out", "web.yaml"], .link "old.yaml")]

/-- A set with a cluster that goes out, one that is in the way of a directory, and one that
cannot be collected. -/
def sampleSet : ClusterSet := .ofList [
  (".hidden", .empty),
  ("db", .empty),
  ("web", .ofList [(clusterKey, .one (.text "w1"))])]

/-- A writer that keeps the version. -/
def sampleWriter : Writer where
  directory := "out"
  isProtected file := file == "version.yaml"

theorem sampleTree_leadsTo : sampleTree.LeadsTo sampleWriter.directory ["out"] :=
  FileTree.leadsTo_entryName (by decide) (by decide +kernel)

theorem sampleTree_directory? : sampleTree.directory? sampleWriter.directory = some ["out"] :=
  sampleTree_leadsTo.directory?

/-- The hypotheses of `publish_finalState` are satisfiable. -/
theorem publish_finalState_sample :
    sampleTree.HasEntryNames ∧ HiddenWritable ["out"] sampleTree sampleSet ∧
      ∃ after report, sampleWriter.publish "scratch" sampleSet sampleTree = (after, .ok report) ∧
        FinalState sampleWriter sampleSet ["out"] sampleTree after report := by
  have names : sampleTree.HasEntryNames := by decide +kernel
  have hidden : HiddenWritable ["out"] sampleTree sampleSet := by decide +kernel
  obtain ⟨after, report, ok⟩ := exists_publish_eq_ok sampleWriter "scratch" sampleSet
    sampleTree_directory?
  exact ⟨names, hidden, after, report, ok, publish_finalState names sampleTree_leadsTo hidden ok⟩

end Publish
end ClusterSync
