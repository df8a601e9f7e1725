/-
# Publishing and reading back

Where a set is published into an empty directory, the directory has the files of its clusters
and nothing else (`Published.get?_name`, `Published.get?_eq_none`), and every body is read as what
it was written for (`Attributes.ofFile_body`). So reading the directory gives the set as published
(`Published.clustersIn_eq`), in which every scalar has its kind and value
(`Normal.areKeptAs_published`). That set has the same bodies, so publishing it again writes the
same bytes wherever it goes (`Published.publish_elsewhere`), and in the same place it changes
nothing (`Published.publish_again`).
-/

import ClusterSync.Proofs.Cluster.KeptValues
import ClusterSync.Proofs.Files.Walks
import ClusterSync.Proofs.Publish.Accounting
import ClusterSync.Proofs.Source.Directory

namespace ClusterSync
namespace Publish

open Files

variable {w : Writer} {dir : Place} {scratch cluster : String} {set : ClusterSet}
  {tree after : FileTree} {report : Report}

instance (cluster : String) : Decidable (IsPublishable cluster) :=
  decidable_of_iff' _ isPublishable_iff

theorem IsPublishable.isEntryName (h : IsPublishable cluster) :
    IsEntryName (ClusterFile.name cluster) := by
  have hname : ClusterFile.isName (ClusterFile.name cluster) = true :=
    ClusterFile.isName_name_iff.2 ⟨h.ne_empty, h.oneLine⟩
  have hslash : '/' ∉ (ClusterFile.name cluster).toList := by
    simp [ClusterFile.toList_name, h.noSlash]
  exact ⟨ClusterFile.isBare_of_isName hname hslash,
    ClusterFile.nameError?_name.2 ⟨h.noZero, h.short.trans (by decide)⟩⟩

/-- The clusters of a set as published. -/
def publishedSet (set : ClusterSet) : ClusterSet := set.mapValues Normal.published

theorem get?_publishedSet (set : ClusterSet) (cluster : String) :
    (publishedSet set).get? cluster = (set.get? cluster).map Normal.published :=
  Table.get?_mapValues ..

theorem get?_publishedSet_of_eq_some {data : Attributes} (hget : set.get? cluster = some data) :
    (publishedSet set).get? cluster = some (Normal.published data) := by
  rw [get?_publishedSet, hget, Option.map_some]

theorem mem_keys_publishedSet {set : ClusterSet} :
    cluster ∈ (publishedSet set).keys ↔ cluster ∈ set.keys := by
  rw [Table.mem_keys_iff, Table.mem_keys_iff, get?_publishedSet, Option.isSome_map]

theorem get?_of_list_eq_nil (vacant : tree.list dir = []) (name : String) :
    tree.get? (dir ++ [name]) = none := by
  refine Option.eq_none_iff_forall_not_mem.2 fun entry hentry => ?_
  have hmem := FileTree.mem_list_iff.2 hentry
  rw [vacant] at hmem
  exact List.not_mem_nil hmem

theorem hiddenWritable_of_list_eq_nil (vacant : tree.list dir = []) :
    HiddenWritable dir tree set := by
  intro cluster _ entry hentry
  rw [get?_of_list_eq_nil vacant] at hentry
  cases hentry

namespace Published

variable (h : Published w .none scratch set dir tree after report) (vacant : tree.list dir = [])
  (publishable : ∀ cluster ∈ set.keys, IsPublishable cluster)

include h

/-- A cluster that nothing is in the way of has its body in the directory. -/
theorem get?_name (publishable : ∀ cluster ∈ set.keys, IsPublishable cluster) {data : Attributes}
    (hget : set.get? cluster = some data)
    (clear : tree.get? (dir ++ [ClusterFile.name cluster]) ≠ some .directory) :
    after.get? (dir ++ [ClusterFile.name cluster]) = some (.file data.body.toUTF8) := by
  have hkey : cluster ∈ set.keys := Table.mem_keys_iff_exists.2 ⟨data, hget⟩
  exact h.get?_written hget (h.mem_written.2 ⟨cluster, hkey, publishable cluster hkey, rfl, clear⟩)

/-- All entries of the tree afterwards have names that an entry may have. -/
theorem hasEntryNames (names : tree.HasEntryNames)
    (target : tree.directory? w.directory = some dir) : after.HasEntryNames := by
  intro place entry hentry
  by_cases hfile : ∃ file ∈ report.written, place = dir ++ [file]
  · obtain ⟨file, hmem, rfl⟩ := hfile
    obtain ⟨cluster, -, hpub, rfl, -⟩ := h.mem_written.1 hmem
    intro name hname
    rcases List.mem_append.1 hname with hdir | hlast
    · exact FileTree.isEntryPlace_of_directory? names target name hdir
    · exact List.mem_singleton.1 hlast ▸ hpub.isEntryName
  · have hsame : after.get? place = tree.get? place := by
      refine h.get?_of_forall_ne (fun file hmem heq => hfile ⟨file, hmem, heq⟩)
        (fun file hmem heq => ?_) ?_
      · rw [heq, h.get?_deleted file hmem] at hentry
        cases hentry
      · rintro cluster hkey hpub rfl
        rw [h.get?_hidden_of_isPublishable hkey hpub] at hentry
        cases hentry
    exact names _ _ (hsame ▸ hentry)

theorem sameAround : FileTree.SameAround dir tree after := by
  intro place hplace
  exact h.get?_of_forall_ne (fun file _ => hplace file) (fun file _ => hplace file)
    fun _ _ _ => hplace _

include vacant

theorem deleted_eq_nil : report.deleted = [] := by
  refine List.eq_nil_iff_forall_not_mem.2 fun file hfile => ?_
  obtain ⟨bytes, hplain⟩ := ((h.mem_deleted file).1 hfile).1.plain
  rw [get?_of_list_eq_nil vacant] at hplain
  cases hplain

/-- A cluster that is not in the set has no file. -/
theorem get?_eq_none (hkey : cluster ∉ set.keys) :
    after.get? (dir ++ [ClusterFile.name cluster]) = none := by
  have hkept : ClusterFile.name cluster ∉ report.deleted := by
    rw [h.deleted_eq_nil vacant]
    exact List.not_mem_nil
  rw [h.get?_name_of_not_mem hkey hkept, get?_of_list_eq_nil vacant]

include publishable

/-- **Reading the directory gives the set as published.** -/
theorem clustersIn_eq (proper : ∀ cluster data, set.get? cluster = some data → data.IsProper) :
    after.clustersIn dir = publishedSet set := by
  refine Table.ext_get? fun cluster => Option.ext fun data => ?_
  rw [FileTree.get?_clustersIn, get?_publishedSet]
  cases hget : set.get? cluster with
  | none =>
    have hgone := h.get?_eq_none vacant (Table.not_mem_keys_iff.2 hget)
    simp [hgone]
  | some original =>
    have hpub := publishable cluster (Table.mem_keys_iff_exists.2 ⟨original, hget⟩)
    have hfile := h.get?_name publishable hget (by simp [get?_of_list_eq_nil vacant])
    have hread : after.attributes? dir (ClusterFile.name cluster) =
        some (Normal.published original) := by
      rw [FileTree.attributes?, FileTree.readText_file hpub.isEntryName hfile]
      simp only [Attributes.ofFile_body (proper _ _ hget)]
      rfl
    simp [hread, hfile, hpub.ne_empty, hpub.oneLine]

/-- **Publishing what has been read into the same directory changes nothing.** -/
theorem eq_of_published {w' : Writer} {scratch' : String} {again : FileTree} {report' : Report}
    (h' : Published w' .none scratch' (publishedSet set) dir after again report') :
    again = after := by
  have hpublishable : ∀ cluster ∈ (publishedSet set).keys, IsPublishable cluster :=
    fun cluster hkey => publishable cluster (mem_keys_publishedSet.1 hkey)
  have hfile {data : Attributes} {cluster : String} (hget : set.get? cluster = some data) :
      after.get? (dir ++ [ClusterFile.name cluster]) = some (.file data.body.toUTF8) :=
    h.get?_name publishable hget (by simp [get?_of_list_eq_nil vacant])
  refine Table.ext_get? fun place => ?_
  by_cases hplace : ∃ cluster ∈ set.keys, place = dir ++ [ClusterFile.name cluster] ∨
      place = dir ++ [ClusterFile.hidden (ClusterFile.name cluster)]
  · obtain ⟨cluster, hkey, rfl | rfl⟩ := hplace
    · obtain ⟨data, hget⟩ := Table.mem_keys_iff_exists.1 hkey
      rw [h'.get?_name hpublishable (get?_publishedSet_of_eq_some hget) (by simp [hfile hget]),
        hfile hget, Attributes.body_published]
    · rw [h'.get?_hidden_of_isPublishable (mem_keys_publishedSet.2 hkey) (publishable cluster hkey),
        h.get?_hidden_of_isPublishable hkey (publishable cluster hkey)]
  · refine h'.get?_of_forall_ne (fun file hmem heq => ?_) (fun file hmem heq => ?_)
      fun cluster hkey hpub heq => ?_
    · obtain ⟨cluster, hkey, -, rfl, -⟩ := h'.mem_written.1 hmem
      exact hplace ⟨cluster, mem_keys_publishedSet.1 hkey, .inl heq⟩
    · -- The directory has no file of a cluster that is not in the set.
      obtain ⟨-, cluster, bytes, hcluster, hplain, hgone⟩ := ((h'.mem_deleted file).1 hmem).1
      obtain ⟨rfl, -⟩ := ClusterFile.cluster?_eq_some_iff.1 hcluster
      have hkey : cluster ∉ set.keys := fun hkey =>
        Table.not_mem_keys_iff.2 hgone (mem_keys_publishedSet.2 hkey)
      rw [h.get?_eq_none vacant hkey] at hplain
      cases hplain
    · exact hplace ⟨cluster, mem_keys_publishedSet.1 hkey, .inr heq⟩

/-- Every cluster goes out, so none fails. -/
theorem failed_eq_nil (ok : w.publish scratch set tree = (after, .ok report)) :
    report.failed = [] := by
  have haccounts := accounts_perm_none ok
  have hnodup : (report.written ++ report.failed.map (·.1)).Nodup :=
    haccounts.nodup_iff.2 (nodup_map_name (set.nodup_keys.filter _))
  refine List.eq_nil_iff_forall_not_mem.2 fun failure hfailure => ?_
  have hfailed : failure.1 ∈ report.failed.map (·.1) := List.mem_map.2 ⟨failure, hfailure, rfl⟩
  obtain ⟨cluster, hmem, hname⟩ :=
    List.mem_map.1 (haccounts.mem_iff.1 (List.mem_append_right report.written hfailed))
  have hkey : cluster ∈ set.keys := (List.mem_filter.1 hmem).1
  have hwritten : failure.1 ∈ report.written := h.mem_written.2
    ⟨cluster, hkey, publishable cluster hkey, hname.symm, by simp [get?_of_list_eq_nil vacant]⟩
  exact (List.nodup_append.1 hnodup).2.2 _ hwritten _ hfailed rfl

/-- What has been read is published into the same directory, every file of it, and nothing
changes. -/
theorem publish_again (names : tree.HasEntryNames) (target : tree.LeadsTo w.directory dir)
    {w' : Writer} (scratch' : String) (hsame : w'.directory = w.directory) :
    ∃ report', w'.publish scratch' (publishedSet set) after = (after, .ok report') ∧
      ∀ cluster ∈ set.keys, ClusterFile.name cluster ∈ report'.written := by
  have target' : after.LeadsTo w'.directory dir := hsame ▸ target.of_sameAround h.sameAround
  have hidden : HiddenWritable dir after (publishedSet set) := by
    intro cluster hkey entry hentry
    have hkey' := mem_keys_publishedSet.1 hkey
    rw [h.get?_hidden_of_isPublishable hkey' (publishable cluster hkey')] at hentry
    cases hentry
  obtain ⟨again, report', ok⟩ :=
    exists_publish_eq_ok w' scratch' (publishedSet set) target'.directory?
  have names' := h.hasEntryNames names target.directory?
  have h' := published_of_publish names' target' hidden ok
  rw [h.eq_of_published vacant publishable h'] at ok
  refine ⟨report', ok, fun cluster hkey => ?_⟩
  obtain ⟨data, hget⟩ := Table.mem_keys_iff_exists.1 hkey
  have hfile := h.get?_name publishable hget (by simp [get?_of_list_eq_nil vacant])
  exact h'.mem_written.2 ⟨cluster, mem_keys_publishedSet.2 hkey, publishable cluster hkey, rfl,
    by simp [hfile]⟩

/-- Into another directory it is published with the same bytes. -/
theorem publish_elsewhere {w' : Writer} {tree' : FileTree} {dir' : Place} (scratch' : String)
    (names' : tree'.HasEntryNames) (target' : tree'.LeadsTo w'.directory dir')
    (hidden' : HiddenWritable dir' tree' (publishedSet set))
    (clear : ∀ cluster ∈ set.keys,
      tree'.get? (dir' ++ [ClusterFile.name cluster]) ≠ some .directory) :
    ∃ after' report', w'.publish scratch' (publishedSet set) tree' = (after', .ok report') ∧
      ∀ cluster ∈ set.keys, ClusterFile.name cluster ∈ report'.written ∧ ∃ bytes,
        after.get? (dir ++ [ClusterFile.name cluster]) = some (.file bytes) ∧
        after'.get? (dir' ++ [ClusterFile.name cluster]) = some (.file bytes) := by
  obtain ⟨after', report', ok⟩ :=
    exists_publish_eq_ok w' scratch' (publishedSet set) target'.directory?
  have h' := published_of_publish names' target' hidden' ok
  have hpublishable : ∀ cluster ∈ (publishedSet set).keys, IsPublishable cluster :=
    fun cluster hkey => publishable cluster (mem_keys_publishedSet.1 hkey)
  refine ⟨after', report', ok, fun cluster hkey => ⟨?_, ?_⟩⟩
  · exact h'.mem_written.2 ⟨cluster, mem_keys_publishedSet.2 hkey, publishable cluster hkey, rfl,
      clear cluster hkey⟩
  · obtain ⟨data, hget⟩ := Table.mem_keys_iff_exists.1 hkey
    refine ⟨data.body.toUTF8, ?_, ?_⟩
    · exact h.get?_name publishable hget (by simp [get?_of_list_eq_nil vacant])
    · rw [h'.get?_name hpublishable (get?_publishedSet_of_eq_some hget) (clear cluster hkey),
        Attributes.body_published]

end Published

/-- **Publishing and reading back are inverse up to normalization.** Where a set whose names can
be published is published into an empty directory, with any scalars that have a document of their
own, nothing fails, and the source of that directory reads the same names with the attributes as
published: each scalar has kept its kind and value. Publishing the set so read writes every file
again. In the same place that changes nothing, and in any other directory where nothing is in the
way it writes the same bytes. -/
theorem publish_read_back (names : tree.HasEntryNames)
    (target : tree.directory? w.directory = some dir) (vacant : tree.list dir = [])
    (publishable : ∀ cluster ∈ set.keys, IsPublishable cluster)
    (proper : ∀ cluster data, set.get? cluster = some data → data.IsProper) (scratch : String) :
    ∃ after report back, w.publish scratch set tree = (after, .ok report) ∧ report.failed = [] ∧
      (∀ name, (Source.directory name w.directory).read after = .ok back) ∧
      back.keys = set.keys ∧
      (∀ cluster data, set.get? cluster = some data →
        back.get? cluster = some (Normal.published data) ∧
          data.AreKeptAs (Normal.published data)) ∧
      (∀ {w' : Writer} (scratch' : String), w'.directory = w.directory →
        ∃ report', w'.publish scratch' back after = (after, .ok report') ∧
          ∀ cluster ∈ set.keys, ClusterFile.name cluster ∈ report'.written) ∧
      ∀ {w' : Writer} {tree' : FileTree} {dir' : Place} (scratch' : String),
        tree'.HasEntryNames → tree'.LeadsTo w'.directory dir' → HiddenWritable dir' tree' back →
        (∀ cluster ∈ set.keys, tree'.get? (dir' ++ [ClusterFile.name cluster]) ≠ some .directory) →
        ∃ after' report', w'.publish scratch' back tree' = (after', .ok report') ∧
          ∀ cluster ∈ set.keys, ClusterFile.name cluster ∈ report'.written ∧ ∃ bytes,
            after.get? (dir ++ [ClusterFile.name cluster]) = some (.file bytes) ∧
            after'.get? (dir' ++ [ClusterFile.name cluster]) = some (.file bytes) := by
  obtain ⟨after, report, ok⟩ := exists_publish_eq_ok w scratch set target
  have hleads : tree.LeadsTo w.directory dir :=
    FileTree.leadsTo_of_vacant target (get?_of_list_eq_nil vacant)
  have h := published_of_publish names hleads (hiddenWritable_of_list_eq_nil vacant) ok
  refine ⟨after, report, publishedSet set, ok, h.failed_eq_nil vacant publishable ok,
    fun name => ?_, ?_, fun cluster data hget => ?_,
    h.publish_again vacant publishable names hleads, h.publish_elsewhere vacant publishable⟩
  · rw [FileTree.read_directory (hleads after h.sameAround),
      h.clustersIn_eq vacant publishable proper]
  · simp [publishedSet, Table.mapValues, Table.mapEntries, Table.keys]
  · exact ⟨get?_publishedSet_of_eq_some hget, Normal.areKeptAs_published data⟩

/-- Two empty directories. -/
def vacantTree : FileTree := .ofList [(["mirror"], .directory), (["out"], .directory)]

/-- A writer beside the other one. -/
def mirrorWriter : Writer where
  directory := "mirror"

/-- A set with texts that look like other scalars, and with numbers at the ends of their ranges. -/
def mixedSet : ClusterSet := .ofList [
  ("a.b", .ofList [
    ("least", .one (.integer Int64.minValue)),
    ("most", .one (.unsigned 0xFFFFFFFFFFFFFFFF)),
    ("third", .one (.float ⟨0x3FD5555555555555⟩))]),
  ("web", .ofList [
    (clusterKey, .one (.text "w1")),
    ("looks like", .many [.text "12", .text "true", .text "null", .text "~", .null, .bool true])])]

/-- What `mixedSet` is read back as. -/
def mixedSetBack : ClusterSet := .ofList [
  ("a.b", .ofList [
    (clusterKey, .one (.text "")),
    ("least", .one (.integer Int64.minValue)),
    ("most", .one (.unsigned 0xFFFFFFFFFFFFFFFF)),
    ("third", .one (.float ⟨0x3FD5555555555555⟩))]),
  ("web", .ofList [
    (clusterKey, .one (.text "w1")),
    ("looks_like", .many [.text "12", .text "true", .text "null", .text "~", .null, .bool true])])]

/-- The hypotheses of `publish_read_back` are satisfiable, also those for publishing again, and
the values are read back one by one. -/
theorem publish_read_back_sample :
    ∃ after report back after' report',
      sampleWriter.publish "scratch" mixedSet vacantTree = (after, .ok report) ∧
      (Source.directory "local" "out").read after = .ok back ∧ back = mixedSetBack ∧
      mirrorWriter.publish "again" back vacantTree = (after', .ok report') ∧
      ∀ cluster ∈ mixedSet.keys, ∃ bytes,
        after.get? ["out", ClusterFile.name cluster] = some (.file bytes) ∧
        after'.get? ["mirror", ClusterFile.name cluster] = some (.file bytes) := by
  have names : vacantTree.HasEntryNames := by decide +kernel
  have out : vacantTree.directory? sampleWriter.directory = some ["out"] :=
    FileTree.directory?_entryName (by decide) (by decide +kernel)
  have mirror : vacantTree.LeadsTo mirrorWriter.directory ["mirror"] :=
    FileTree.leadsTo_entryName (by decide) (by decide +kernel)
  have vacant : vacantTree.list ["out"] = [] := by decide +kernel
  have vacant' : vacantTree.list ["mirror"] = [] := by decide +kernel
  have publishable : ∀ cluster ∈ mixedSet.keys, IsPublishable cluster := by decide +kernel
  have hproper : ∀ e ∈ mixedSet.entries, e.2.IsProper := by decide +kernel
  have proper : ∀ cluster data, mixedSet.get? cluster = some data → data.IsProper :=
    fun cluster data hget => hproper (cluster, data) (Table.mem_entries_iff.2 hget)
  obtain ⟨after, report, back, ok, -, hread, hkeys, hvalues, -, hagain⟩ :=
    publish_read_back names out vacant publishable proper "scratch"
  obtain ⟨after', report', ok', hsame⟩ := hagain "again" names mirror
    (hiddenWritable_of_list_eq_nil vacant') fun cluster _ => by
      rw [get?_of_list_eq_nil vacant' (ClusterFile.name cluster)]
      exact nofun
  have hback : back = mixedSetBack := by
    have hpublished : publishedSet mixedSet = mixedSetBack := by decide +kernel
    refine (Table.ext_get? fun cluster => ?_).trans hpublished
    rw [get?_publishedSet]
    cases hget : mixedSet.get? cluster with
    | none => exact Table.not_mem_keys_iff.1 (hkeys ▸ Table.not_mem_keys_iff.2 hget)
    | some data => exact (hvalues cluster data hget).1
  exact ⟨after, report, back, after', report', ok, hread "local", hback, ok', fun cluster hkey =>
    (hsame cluster hkey).2⟩

end Publish
end ClusterSync
