/-
# What a run over directories deletes

A cluster file is deleted when its cluster is in none of the sources. A directory has a cluster
only if the file of the cluster can be read: one that is there and cannot be read, or is no
document of attributes, counts as absent. So what a run deletes are the cluster files that no
source directory can deliver (`deleted_undelivered`), and one slip in the file of a source, while
the file is still there, takes the published file away (`run_deletes_slippedTree`).
-/

import ClusterSync.Proofs.Publish.Accounting
import ClusterSync.Proofs.Run.Collecting
import ClusterSync.Proofs.Run.Failing
import ClusterSync.Proofs.Source.Directory

namespace ClusterSync

open Files Publish

/-- A directory of this machine in a plan. -/
structure LocalSource where
  label : String
  policy : Policy
  path : String

/-- The source that it is. -/
def LocalSource.planned (s : LocalSource) : Planned :=
  ⟨s.label, s.policy, .directory s.label s.path⟩

/-- The run over directories of this machine. -/
def Runner.ofDirectories (writer : Writer) (sources : List LocalSource) : Runner :=
  ⟨writer, sources.map LocalSource.planned⟩

namespace Runner

variable {w : Writer} {sources : List LocalSource} {tree : FileTree} {dir : Place}
  {scratch file cluster : String} {p : Progress} {outcome : Outcome}

/-- What is collected from directories: the clusters that one of them delivers. -/
theorem mem_keys_collect_ofDirectories {set : ClusterSet}
    (h : (ofDirectories w sources).collect tree = .ok set)
    (hcluster : ClusterFile.cluster? file = some cluster) :
    cluster ∈ set.keys ↔ ∃ s ∈ sources, tree.Delivers s.path cluster := by
  obtain ⟨-, hne, hline⟩ := ClusterFile.cluster?_eq_some_iff.1 hcluster
  have reads := allRead_of_collectInto h
  rw [mem_keys_of_collectInto reads h]
  constructor
  · rintro ⟨_, hmem, added, hread, hkey⟩
    obtain ⟨s, hs, rfl⟩ := List.mem_map.1 hmem
    exact ⟨s, hs, ((FileTree.mem_keys_directory hread).1 hkey).2.2⟩
  · rintro ⟨s, hs, hdelivers⟩
    have hmem : s.planned ∈ (ofDirectories w sources).sources := List.mem_map.2 ⟨s, hs, rfl⟩
    obtain ⟨added, hread⟩ := reads _ hmem
    exact ⟨_, hmem, added, hread, (FileTree.mem_keys_directory hread).2 ⟨hne, hline, hdelivers⟩⟩

/-- A run that ends well has published what it collected. -/
theorem exists_publish_of_run {r : Runner} (run : r.run scratch tree = (p, .ok outcome)) :
    ∃ set, r.collect tree = .ok set ∧
      r.writer.publishUnder .none scratch set tree = (p, .ok outcome.report) := by
  rw [Runner.run, runUnder] at run
  cases hset : r.collect tree with
  | error e => simp [hset] at run
  | ok set =>
    cases hpub : r.writer.publishUnder .none scratch set tree with
    | mk q result =>
      simp only [hset, hpub, Prod.mk.injEq] at run
      obtain ⟨rfl, hresult⟩ := run
      cases result with
      | error e => cases hresult
      | ok report =>
        obtain rfl := Except.ok.inj hresult
        exact ⟨set, rfl, hpub⟩

/-- Only what is to be deleted is. -/
theorem mem_of_mem_deleteAll {faults : Faults} {directory : String} {files : List String}
    {q : Progress} (h : file ∈ (deleteAll faults directory q files).2.1) : file ∈ files := by
  induction files generalizing q with
  | nil => exact absurd h List.not_mem_nil
  | cons first rest ih =>
    rw [deleteAll] at h
    rcases q.deleteIn_cases directory (faults.delete first) first with
      ⟨_, next, -, -, hdelete⟩ | ⟨e, hdelete⟩
    · simp only [hdelete] at h
      rcases List.mem_cons.1 h with rfl | h
      · exact List.mem_cons_self ..
      · exact List.mem_cons_of_mem _ (ih h)
    · simp only [hdelete] at h
      exact List.mem_cons_of_mem _ (ih h)

/-- Only stale files are deleted, whatever stands under hidden names. -/
theorem isStale_of_mem_deleted {faults : Faults} {set : ClusterSet} {report : Report}
    (target : tree.directory? w.directory = some dir)
    (h : w.publishUnder faults scratch set tree = (p, .ok report)) (hfile : file ∈ report.deleted) :
    IsStale w set dir tree file ∧ w.isProtected file = false := by
  obtain ⟨-, rfl⟩ := publishUnder_eq_ok target h
  obtain ⟨hstale, hfree⟩ := List.mem_filter.1 (mem_of_mem_deleteAll hfile)
  refine ⟨(mem_staleFiles fun other hother => ?_).1 hstale, by simpa using hfree⟩
  have hkey : other ∈ (collected faults scratch set).keys :=
    (replaceAll_perm _).mem_iff.1 (List.mem_append_right _ hother)
  exact Table.contains_iff.2 (Table.mem_keys_iff_exists.1 hkey)

/-- **What a run over directories deletes.** Every file that it reports as deleted is one of a
cluster that no source delivers. If nothing but plain files stands under hidden names, a plain
cluster file that is gone is one of a cluster that no source delivers, the writer cleans up and
does not protect it; and every such file is gone if the path of the writer comes to the directory
from outside. -/
theorem deleted_undelivered (target : tree.directory? w.directory = some dir)
    (run : (ofDirectories w sources).run scratch tree = (p, .ok outcome)) :
    (∀ file ∈ outcome.report.deleted, ∃ cluster, ClusterFile.cluster? file = some cluster ∧
      w.isProtected file = false ∧ ∀ s ∈ sources, ¬ tree.Delivers s.path cluster) ∧
    (tree.HasEntryNames → (∀ name, tree.IsWritable (dir ++ [ClusterFile.hidden name])) →
      ∀ file cluster bytes, ClusterFile.cluster? file = some cluster →
        tree.get? (dir ++ [file]) = some (.file bytes) →
          (p.tree.get? (dir ++ [file]) = none → w.clean = true ∧ w.isProtected file = false ∧
            ∀ s ∈ sources, ¬ tree.Delivers s.path cluster) ∧
          (tree.LeadsTo w.directory dir → w.clean = true → w.isProtected file = false →
            (∀ s ∈ sources, ¬ tree.Delivers s.path cluster) →
              p.tree.get? (dir ++ [file]) = none)) := by
  obtain ⟨set, hset, hpub⟩ := exists_publish_of_run run
  have hgone : ∀ {file cluster}, ClusterFile.cluster? file = some cluster →
      (cluster ∉ set.keys ↔ ∀ s ∈ sources, ¬ tree.Delivers s.path cluster) := by
    intro file cluster hcluster
    rw [mem_keys_collect_ofDirectories hset hcluster]
    simp only [not_exists, not_and]
  refine ⟨fun file hfile => ?_, fun names hidden file cluster bytes hcluster hplain => ?_⟩
  · obtain ⟨⟨-, cluster, -, hcluster, -, hget⟩, hfree⟩ := isStale_of_mem_deleted target hpub hfile
    exact ⟨cluster, hcluster, hfree, (hgone hcluster).1 (Table.not_mem_keys_iff.2 hget)⟩
  · obtain ⟨reached, hall, h⟩ :=
      published_of_publishUnder names target (fun c _ => hidden _) hpub
    have hname : ClusterFile.isName file = true := by
      rw [ClusterFile.isName, hcluster, Option.isSome_some]
    have hstale : IsStale w set dir tree file ↔ w.clean = true ∧ cluster ∉ set.keys :=
      isStale_iff hcluster hplain
    rw [h.get?_eq_none_iff hname hplain, h.mem_deleted, hstale, hgone hcluster]
    constructor
    · rintro ⟨⟨hclean, hnone⟩, hfree, -⟩
      exact ⟨hclean, hfree, hnone⟩
    · intro hleads hclean hfree hnone
      rw [Faults.within_of_forall (hall hleads)]
      exact ⟨⟨hclean, hnone⟩, hfree, rfl⟩

/-- Two published clusters, and a source directory that has the files of both. In one of them a
bracket is not closed. -/
def slippedTree : FileTree := .ofList [
  (["out"], .directory),
  (["out", "db.yaml"], .file "CLUSTER: d1\n".toUTF8),
  (["out", "web.yaml"], .file "CLUSTER: w1\n".toUTF8),
  (["src"], .directory),
  (["src", "db.yaml"], .file "CLUSTER: d1\n".toUTF8),
  (["src", "web.yaml"], .file "CLUSTER: [\n".toUTF8)]

def slippedWriter : Writer := { directory := "out" }

/-- The source directory of `slippedTree`. -/
def slippedSource : LocalSource := ⟨"local", .merge, "src"⟩

theorem slippedTree_leadsTo : slippedTree.LeadsTo slippedWriter.directory ["out"] :=
  FileTree.leadsTo_entryName (by decide) (by decide +kernel)

theorem slippedTree_source : slippedTree.directory? slippedSource.path = some ["src"] :=
  FileTree.directory?_entryName (by decide) (by decide +kernel)

/-- A run over directories that are there, into one that is there, ends well. -/
theorem exists_run_eq_ok {r : Runner} (reads : AllRead tree r.sources)
    (target : tree.directory? r.writer.directory = some dir) (scratch : String) :
    ∃ p outcome, r.run scratch tree = (p, .ok outcome) := by
  obtain ⟨set, hset, -⟩ := exists_collectInto_eq_ok .empty reads
  simp only [Runner.run, runUnder, collect, hset, Writer.publishUnder, target]
  exact ⟨_, _, rfl⟩

theorem exists_run_slippedTree :
    ∃ p outcome, (ofDirectories slippedWriter [slippedSource]).run "scratch" slippedTree =
      (p, .ok outcome) := by
  refine exists_run_eq_ok (fun planned hmem => ?_) slippedTree_leadsTo.directory? _
  obtain rfl := List.mem_singleton.1 hmem
  exact ⟨_, FileTree.read_directory slippedTree_source⟩

/-- All that is published there is plain files. -/
theorem isWritable_slippedTree (name : String) :
    slippedTree.IsWritable (["out"] ++ [ClusterFile.hidden name]) := by
  intro entry hentry
  have hentries : slippedTree.entries = [
      (["out"], .directory), (["out", "db.yaml"], .file "CLUSTER: d1\n".toUTF8),
      (["out", "web.yaml"], .file "CLUSTER: w1\n".toUTF8), (["src"], .directory),
      (["src", "db.yaml"], .file "CLUSTER: d1\n".toUTF8),
      (["src", "web.yaml"], .file "CLUSTER: [\n".toUTF8)] := by decide +kernel
  have hmem := Table.mem_entries_iff.2 hentry
  rw [hentries] at hmem
  rcases (by simpa using hmem) with ⟨-, rfl⟩ | ⟨-, rfl⟩ <;> rfl

/-- The file with the slip delivers nothing. -/
theorem not_delivers_slippedTree : ¬ slippedTree.Delivers slippedSource.path "web" := by
  rintro ⟨dir, data, hdir, -, hattr⟩
  obtain rfl := Option.some.inj (slippedTree_source.symm.trans hdir)
  have hread : slippedTree.readText ["src"] "web.yaml" = .ok "CLUSTER: [\n" :=
    FileTree.readText_file (by decide +kernel) (by decide +kernel)
  have hnone : (Attributes.ofFile "CLUSTER: [\n").toOption = none := by decide +kernel
  rw [FileTree.attributes?, show ClusterFile.name "web" = "web.yaml" from rfl, hread] at hattr
  simp [hnone] at hattr

/-- The hypotheses of `deleted_undelivered` are satisfiable, and so are those on names. -/
theorem deleted_undelivered_slippedTree :
    ∃ p outcome, (ofDirectories slippedWriter [slippedSource]).run "scratch" slippedTree =
        (p, .ok outcome) ∧ slippedTree.HasEntryNames ∧
      (∀ name, slippedTree.IsWritable (["out"] ++ [ClusterFile.hidden name])) ∧
      p.tree.get? ["out", "web.yaml"] = none := by
  obtain ⟨p, outcome, run⟩ := exists_run_slippedTree
  have names : slippedTree.HasEntryNames := by decide +kernel
  refine ⟨p, outcome, run, names, isWritable_slippedTree, ?_⟩
  refine ((deleted_undelivered slippedTree_leadsTo.directory? run).2 names isWritable_slippedTree
    "web.yaml" "web" "CLUSTER: w1\n".toUTF8 (by decide +kernel) (by decide +kernel)).2
      slippedTree_leadsTo rfl rfl ?_
  intro s hs
  obtain rfl := List.mem_singleton.1 hs
  exact not_delivers_slippedTree

/-- **A file that is there can be taken for one that is gone.** The source directory has an entry
`web.yaml`, and the published `web.yaml` is deleted. -/
theorem run_deletes_slippedTree :
    ∃ p outcome, (ofDirectories slippedWriter [slippedSource]).run "scratch" slippedTree =
        (p, .ok outcome) ∧
      slippedTree.directory? slippedSource.path = some ["src"] ∧
      slippedTree.get? ["src", "web.yaml"] = some (.file "CLUSTER: [\n".toUTF8) ∧
      slippedTree.get? ["out", "web.yaml"] = some (.file "CLUSTER: w1\n".toUTF8) ∧
      "web.yaml" ∈ outcome.report.deleted ∧ p.tree.get? ["out", "web.yaml"] = none := by
  obtain ⟨p, outcome, run⟩ := exists_run_slippedTree
  obtain ⟨set, hset, hpub⟩ := exists_publish_of_run run
  have names : slippedTree.HasEntryNames := by decide +kernel
  have h := published_of_leadsTo names slippedTree_leadsTo
    (fun c _ => isWritable_slippedTree _) hpub
  have hcluster : ClusterFile.cluster? "web.yaml" = some "web" := by decide +kernel
  have hplain : slippedTree.get? (["out"] ++ ["web.yaml"]) =
      some (.file "CLUSTER: w1\n".toUTF8) := by decide +kernel
  have hgone : "web" ∉ set.keys := by
    rw [mem_keys_collect_ofDirectories hset hcluster]
    rintro ⟨s, hs, hdelivers⟩
    obtain rfl := List.mem_singleton.1 hs
    exact not_delivers_slippedTree hdelivers
  have hdeleted : "web.yaml" ∈ outcome.report.deleted :=
    (h.mem_deleted _).2 ⟨(isStale_iff hcluster hplain).2 ⟨rfl, hgone⟩, rfl, rfl⟩
  exact ⟨p, outcome, run, slippedTree_source, by decide +kernel, hplain, hdeleted,
    h.get?_deleted _ hdeleted⟩

end Runner
end ClusterSync
