/-
# Files that are reported as failed

A file that cannot be replaced is as it was (`Published.get?_file`), and one that could not be
collected is left alone, since nothing of it goes out. Between the two stands a file that is
torn: the write that was to collect it failed and left a part of it behind. The cluster is
reported, and the part is found again when the collected files are listed, so that it goes out
like any other.

`publish_failed_unchanged` says for every pattern of faults that this is the only way in which a
reported file changes, and when it comes to that. `publish_failed_changes` has a full disk for
it.
-/

import ClusterSync.Proofs.Publish.FinalState

namespace ClusterSync
namespace Publish

open Files

variable {w : Writer} {faults : Faults} {dir : Place} {scratch file : String} {set : ClusterSet}
  {tree : FileTree} {p : Progress} {report : Report} {part : ByteArray}

/-- Has a write that failed left this part of a cluster's file among the collected ones? -/
def IsTorn (faults : Faults) (set : ClusterSet) (file : String) (part : ByteArray) : Prop :=
  ∃ cluster data n e, set.get? cluster = some data ∧ file = ClusterFile.name cluster ∧
    '\n' ∉ cluster.toList ∧ isStageable cluster = true ∧
    faults.stage file = some ⟨some n, e⟩ ∧ part = firstBytes (bodyBytes data) n

/-- What is torn is both collected and reported, and nothing else is. -/
theorem isTorn_iff :
    IsTorn faults set file part ↔ (collected faults scratch set).get? file = some part ∧
      file ∈ (uncollected faults scratch set).map (·.1) := by
  rw [get?_collected, uncollected, mem_stageAll_failed]
  constructor
  · rintro ⟨cluster, data, n, e, hget, rfl, hline, hstage, hfault, rfl⟩
    exact ⟨⟨cluster, data, hget, rfl, hline, by simp [left?, hstage, hfault]⟩,
      cluster, data, hget, rfl, by simp [refuses, hfault]⟩
  · rintro ⟨⟨cluster, data, hget, rfl, hline, hleft⟩, other, -, -, hname, hrefused⟩
    obtain rfl := ClusterFile.name_inj.1 hname
    have hstage := isStageable_of_left? hleft
    cases hfault : faults.stage (ClusterFile.name cluster) with
    | none => simp [refuses, hstage, hfault] at hrefused
    | some torn =>
      obtain ⟨left, e⟩ := torn
      simp only [left?, hstage, hfault, if_true, Option.map_eq_some_iff] at hleft
      obtain ⟨n, rfl, rfl⟩ := hleft
      exact ⟨cluster, data, n, e, hget, rfl, hline, hstage, hfault, rfl⟩

namespace Published

variable {after : FileTree} (h : Published w faults scratch set dir tree after report)

include h

theorem mem_written_iff_collected :
    file ∈ report.written ↔ ∃ bytes, (collected faults scratch set).get? file = some bytes ∧
      goesOut faults dir tree file = true := by
  rw [h.written_eq, List.mem_map]
  constructor
  · rintro ⟨⟨_, bytes⟩, hmem, rfl⟩
    obtain ⟨hmem, hgoes⟩ := List.mem_filter.1 hmem
    exact ⟨bytes, Table.mem_entries_iff.1 hmem, hgoes⟩
  · rintro ⟨bytes, hget, hgoes⟩
    exact ⟨(file, bytes), List.mem_filter.2 ⟨Table.mem_entries_iff.2 hget, hgoes⟩, rfl⟩

theorem mem_failed_iff :
    file ∈ report.failed.map (·.1) ↔ file ∈ (uncollected faults scratch set).map (·.1) ∨
      ∃ bytes, (collected faults scratch set).get? file = some bytes ∧
        goesOut faults dir tree file = false := by
  rw [h.failed_eq, List.mem_append, List.mem_map (l := List.filter ..)]
  refine or_congr_right ⟨?_, ?_⟩
  · rintro ⟨⟨_, bytes⟩, hmem, rfl⟩
    obtain ⟨hmem, hkept⟩ := List.mem_filter.1 hmem
    exact ⟨bytes, Table.mem_entries_iff.1 hmem, by simpa using hkept⟩
  · rintro ⟨bytes, hget, hkept⟩
    exact ⟨(file, bytes), List.mem_filter.2 ⟨Table.mem_entries_iff.2 hget, by simp [hkept]⟩, rfl⟩

theorem mem_written_failed_iff :
    file ∈ report.written ∧ file ∈ report.failed.map (·.1) ↔
      ∃ part, IsTorn faults set file part ∧ goesOut faults dir tree file = true := by
  rw [h.mem_written_iff_collected, h.mem_failed_iff]
  constructor
  · rintro ⟨⟨bytes, hget, hgoes⟩, huncollected | ⟨-, -, hkept⟩⟩
    · exact ⟨bytes, isTorn_iff.2 ⟨hget, huncollected⟩, hgoes⟩
    · rw [hgoes] at hkept
      cases hkept
  · rintro ⟨part, htorn, hgoes⟩
    obtain ⟨hget, huncollected⟩ := isTorn_iff.1 htorn
    exact ⟨⟨part, hget, hgoes⟩, .inl huncollected⟩

theorem get?_torn (htorn : IsTorn faults set file part)
    (hgoes : goesOut faults dir tree file = true) :
    after.get? (dir ++ [file]) = some (.file part) := by
  have hget : (collected faults scratch set).get? file = some part := (isTorn_iff.1 htorn).1
  rw [h.get?_file _ (Table.mem_entries_iff.2 hget), if_pos hgoes]

/-- Nothing is written or deleted in the place of a file that has not been collected and is
reported. -/
theorem get?_uncollected (hfile : file ∈ (uncollected faults scratch set).map (·.1))
    (habsent : (collected faults scratch set).get? file = none) :
    after.get? (dir ++ [file]) = tree.get? (dir ++ [file]) := by
  obtain ⟨cluster, -, -, rfl, -⟩ := mem_stageAll_failed.1 hfile
  refine h.get?_frame _ (fun e he => ⟨fun heq => ?_, fun _ heq => ?_⟩) fun other hdeleted heq => ?_
  · have hname : ClusterFile.name cluster = e.1 := by simpa using heq
    rw [hname, Table.mem_entries_iff.1 he] at habsent
    cases habsent
  · exact ClusterFile.hidden_ne_name e.1 cluster (by simpa using heq.symm)
  · obtain rfl : ClusterFile.name cluster = other := by simpa using heq
    exact ((h.mem_deleted _).1 hdeleted).1.not_uncollected hfile

theorem get?_failed (hfile : file ∈ report.failed.map (·.1)) (hnot : file ∉ report.written) :
    after.get? (dir ++ [file]) = tree.get? (dir ++ [file]) := by
  cases hget : (collected faults scratch set).get? file with
  | some bytes =>
    have hkept : goesOut faults dir tree file ≠ true := fun hgoes =>
      hnot (h.mem_written_iff_collected.2 ⟨bytes, hget, hgoes⟩)
    rw [h.get?_file _ (Table.mem_entries_iff.2 hget), if_neg hkept]
  | none =>
    rcases h.mem_failed_iff.1 hfile with huncollected | ⟨bytes, hbytes, -⟩
    · exact h.get?_uncollected huncollected hget
    · rw [hget] at hbytes
      cases hbytes

end Published

/-- What goes out while some files are out of reach could go out as well without that. -/
theorem goesOut_of_within {reached : String → Bool}
    (h : goesOut (faults.within reached) dir tree file = true) :
    goesOut faults dir tree file = true := by
  obtain ⟨hcopy, hrest⟩ := goesOut_iff.1 h
  refine goesOut_iff.2 ⟨?_, hrest⟩
  cases hreached : reached file with
  | true => simpa [Faults.within, hreached] using hcopy
  | false => simp [Faults.within, hreached] at hcopy

/-- **Which reported files change.** Whatever fails, a file that is reported both as written and as
failed has been torn, and holds the part that went out. Every other file that is reported as failed
has in the directory what it had before. If the path of the writer leads to the directory from
outside, each torn file whose copy and move succeed is reported in both ways. -/
theorem publish_failed_unchanged (names : tree.HasEntryNames)
    (target : tree.directory? w.directory = some dir) (hidden : HiddenWritable dir tree set)
    (ok : w.publishUnder faults scratch set tree = (p, .ok report)) :
    (∀ file, file ∈ report.written → file ∈ report.failed.map (·.1) →
      ∃ part, IsTorn faults set file part ∧ goesOut faults dir tree file = true ∧
        p.tree.get? (dir ++ [file]) = some (.file part)) ∧
    (∀ file ∈ report.failed.map (·.1), file ∉ report.written →
      p.tree.get? (dir ++ [file]) = tree.get? (dir ++ [file])) ∧
    (tree.LeadsTo w.directory dir →
      ∀ file part, IsTorn faults set file part → goesOut faults dir tree file = true →
        file ∈ report.written ∧ file ∈ report.failed.map (·.1) ∧
          p.tree.get? (dir ++ [file]) = some (.file part)) := by
  obtain ⟨reached, -, h⟩ := published_of_publishUnder names target hidden ok
  refine ⟨fun file hwritten hfailed => ?_, fun _ => h.get?_failed, fun outside => ?_⟩
  · obtain ⟨part, htorn, hgoes⟩ := h.mem_written_failed_iff.1 ⟨hwritten, hfailed⟩
    exact ⟨part, htorn, goesOut_of_within hgoes, h.get?_torn htorn hgoes⟩
  · have h := published_of_leadsTo names outside hidden ok
    intro file part htorn hgoes
    obtain ⟨hwritten, hfailed⟩ := h.mem_written_failed_iff.2 ⟨part, htorn, hgoes⟩
    exact ⟨hwritten, hfailed, h.get?_torn htorn hgoes⟩

/-- A disk that is full after five bytes of one file. -/
def fullWhileCollecting : Faults where
  stage file :=
    if file = "web.yaml" then some ⟨some 5, .other "No space left on device (os error 28)"⟩
    else none

/-- A directory with two published clusters. -/
def pairTree : FileTree := .ofList [
  (["out"], .directory),
  (["out", "a.yaml"], .file "CLUSTER: a1\n".toUTF8),
  (["out", "web.yaml"], .file "CLUSTER: w1\n".toUTF8)]

/-- The next generation of both. -/
def pairSet : ClusterSet := .ofList [
  ("a", .ofList [(clusterKey, .one (.text "a2"))]),
  ("web", .ofList [(clusterKey, .one (.text "w2"))])]

theorem pairTree_leadsTo : pairTree.LeadsTo sampleWriter.directory ["out"] :=
  FileTree.leadsTo_entryName (by decide) (by decide +kernel)

/-- A publish into a directory ends well whatever fails with files. -/
theorem exists_publishUnder_eq_ok (w : Writer) (scratch : String) (set : ClusterSet)
    (target : tree.directory? w.directory = some dir) (collectable : faults.collect = none)
    (staged : faults.listStaged = none) (published : faults.listPublished = none) :
    ∃ p report, w.publishUnder faults scratch set tree = (p, .ok report) := by
  simp only [Writer.publishUnder, target, collectable, staged, published]
  exact ⟨_, _, rfl⟩

theorem isTorn_pairSet : IsTorn fullWhileCollecting pairSet "web.yaml"
    (firstBytes (bodyBytes (.ofList [(clusterKey, .one (.text "w2"))])) 5) :=
  ⟨"web", _, 5, _, by decide +kernel, rfl, by decide, by decide +kernel, rfl, rfl⟩

theorem exists_publishUnder_pairSet :
    ∃ p report, sampleWriter.publishUnder fullWhileCollecting "scratch" pairSet pairTree =
      (p, .ok report) :=
  exists_publishUnder_eq_ok _ _ _ pairTree_leadsTo.directory? rfl rfl rfl

/-- The hypotheses of `publish_failed_unchanged` are satisfiable, with a file that is torn. -/
theorem publish_failed_unchanged_pairSet :
    pairTree.HasEntryNames ∧ HiddenWritable ["out"] pairTree pairSet ∧
      pairTree.LeadsTo sampleWriter.directory ["out"] ∧
      ∃ p report, sampleWriter.publishUnder fullWhileCollecting "scratch" pairSet pairTree =
        (p, .ok report) ∧ "web.yaml" ∈ report.written ∧ "web.yaml" ∈ report.failed.map (·.1) := by
  have names : pairTree.HasEntryNames := by decide +kernel
  have hidden : HiddenWritable ["out"] pairTree pairSet := by decide +kernel
  obtain ⟨p, report, ok⟩ := exists_publishUnder_pairSet
  obtain ⟨-, -, hboth⟩ := publish_failed_unchanged names pairTree_leadsTo.directory? hidden ok
  obtain ⟨hwritten, hfailed, -⟩ :=
    hboth pairTree_leadsTo "web.yaml" _ isTorn_pairSet (by decide +kernel)
  exact ⟨names, hidden, pairTree_leadsTo, p, report, ok, hwritten, hfailed⟩

/-- **A reported file can change.** On the full disk the first bytes of `web.yaml` replace the
published file, which is then both written and failed. -/
theorem publish_failed_changes :
    ∃ p report, sampleWriter.publishUnder fullWhileCollecting "scratch" pairSet pairTree =
        (p, .ok report) ∧
      "web.yaml" ∈ report.written ∧ "web.yaml" ∈ report.failed.map (·.1) ∧
      pairTree.get? ["out", "web.yaml"] = some (.file "CLUSTER: w1\n".toUTF8) ∧
      p.tree.get? ["out", "web.yaml"] = some (.file "CLUST".toUTF8) := by
  have names : pairTree.HasEntryNames := by decide +kernel
  have hidden : HiddenWritable ["out"] pairTree pairSet := by decide +kernel
  obtain ⟨p, report, ok⟩ := exists_publishUnder_pairSet
  have h := published_of_leadsTo names pairTree_leadsTo hidden ok
  have hgoes : goesOut fullWhileCollecting ["out"] pairTree "web.yaml" = true := by
    decide +kernel
  obtain ⟨hwritten, hfailed⟩ := h.mem_written_failed_iff.2 ⟨_, isTorn_pairSet, hgoes⟩
  refine ⟨p, report, ok, hwritten, hfailed, by decide +kernel, ?_⟩
  refine (h.get?_torn isTorn_pairSet hgoes).trans ?_
  decide +kernel

end Publish
end ClusterSync
