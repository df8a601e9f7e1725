/-
# Publishing again and again

Sets may be published into one directory as often as one likes, by any writers. Each publish
leaves a directory that the next one can go to (`Published.receives`, `receives_publishAll`), and
what was there before matters no more to it than any other state of the directory.

So a last publish that cleans up and writes all of its set settles which cluster files there are.
One that stands there is a file of the set, with the body of its cluster, or is protected
(`Published.get?_file_iff`). Doing it once more finds nothing to delete and writes the same bodies
(`Published.eq_of_again`).
-/

import ClusterSync.Proofs.Publish.ReadBack

namespace ClusterSync
namespace Publish

open Files

/-- A set that is published by a writer. -/
structure Publication where
  writer : Writer
  /-- The directory in which the files are collected. -/
  scratch : String
  set : ClusterSet

/-- The tree after a publish, and its report. -/
def Publication.run (p : Publication) (tree : FileTree) : FileTree × Except Failure Report :=
  p.writer.publish p.scratch p.set tree

/-- The tree after publishes in turn, whatever comes of each. -/
def publishAll (ps : List Publication) (tree : FileTree) : FileTree :=
  ps.foldl (fun tree p => (p.run tree).1) tree

variable {w : Writer} {dir : Place} {scratch : String} {set : ClusterSet}
  {tree after : FileTree} {report : Report}

/-- Can a set be published into a directory: the path of the writer leads there, and nothing
but plain files stands under the hidden names of its files? -/
structure Receives (dir : Place) (tree : FileTree) (p : Publication) : Prop where
  names : tree.HasEntryNames
  target : tree.LeadsTo p.writer.directory dir
  hidden : HiddenWritable dir tree p.set

theorem Receives.published {p : Publication} (h : Receives dir tree p)
    (ok : p.run tree = (after, .ok report)) :
    Published p.writer .none p.scratch p.set dir tree after report :=
  published_of_publish h.names h.target h.hidden ok

theorem Receives.exists_run_eq_ok {p : Publication} (h : Receives dir tree p) :
    ∃ after report, p.run tree = (after, .ok report) :=
  exists_publish_eq_ok p.writer p.scratch p.set h.target.directory?

namespace Published

variable (h : Published w .none scratch set dir tree after report)

include h

/-- No link or directory comes to stand under a hidden name. -/
theorem hiddenWritable {other : ClusterSet} (hidden : HiddenWritable dir tree other) :
    HiddenWritable dir after other := by
  intro cluster hkey entry hentry
  by_cases hours : ∃ c ∈ set.keys, IsPublishable c ∧
      dir ++ [ClusterFile.hidden (ClusterFile.name cluster)] =
        dir ++ [ClusterFile.hidden (ClusterFile.name c)]
  · obtain ⟨c, hc, hpub, heq⟩ := hours
    rw [heq, h.get?_hidden_of_isPublishable hc hpub] at hentry
    cases hentry
  · refine hidden cluster hkey entry (.trans (.symm ?_) hentry)
    refine h.get?_of_forall_ne (fun file hfile => ?_) (fun file hfile => ?_)
      fun c hc hpub heq => hours ⟨c, hc, hpub, heq⟩
    · obtain ⟨c, -, -, rfl, -⟩ := h.mem_written.1 hfile
      simpa using ClusterFile.hidden_ne_name (ClusterFile.name cluster) c
    · simpa using ClusterFile.hidden_ne_of_isName ((h.mem_deleted file).1 hfile).1.isName

/-- **After a publish the directory can receive whatever it could receive before.** -/
theorem receives (target : tree.directory? w.directory = some dir) {p : Publication}
    (hp : Receives dir tree p) : Receives dir after p where
  names := h.hasEntryNames hp.names target
  target := hp.target.of_sameAround h.sameAround
  hidden := h.hiddenWritable hp.hidden

/-- Where all of the set has been written, and no file of another cluster has stayed, the plain
files are those of the set. -/
theorem get?_file_iff (complete : ∀ cluster ∈ set.keys, ClusterFile.name cluster ∈ report.written)
    {file : String} {bytes : ByteArray}
    (gone : (∀ cluster ∈ set.keys, file ≠ ClusterFile.name cluster) →
      after.get? (dir ++ [file]) ≠ some (.file bytes)) :
    after.get? (dir ++ [file]) = some (.file bytes) ↔
      ∃ cluster data, set.get? cluster = some data ∧ file = ClusterFile.name cluster ∧
        bodyBytes data = bytes := by
  constructor
  · intro hfile
    by_cases hours : ∃ cluster ∈ set.keys, file = ClusterFile.name cluster
    · obtain ⟨cluster, hkey, rfl⟩ := hours
      obtain ⟨data, hget⟩ := Table.mem_keys_iff_exists.1 hkey
      have hbody := h.get?_written hget (complete cluster hkey)
      rw [hbody, Option.some.injEq, Entry.file.injEq] at hfile
      exact ⟨cluster, data, hget, rfl, hfile⟩
    · exact absurd hfile (gone fun cluster hkey heq => hours ⟨cluster, hkey, heq⟩)
  · rintro ⟨cluster, data, hget, rfl, rfl⟩
    exact h.get?_written hget (complete cluster (Table.mem_keys_iff_exists.2 ⟨data, hget⟩))

/-- No unprotected file of a cluster that is gone has stayed, if the writer cleans up. -/
theorem get?_ne_file_of_clean (clean : w.clean = true) {file : String}
    (hname : ClusterFile.isName file = true) (free : w.isProtected file = false)
    (hother : ∀ cluster ∈ set.keys, file ≠ ClusterFile.name cluster) (bytes : ByteArray) :
    after.get? (dir ++ [file]) ≠ some (.file bytes) := by
  intro hfile
  obtain ⟨cluster, rfl, hrest⟩ := ClusterFile.isName_iff.1 hname
  have hcluster := ClusterFile.cluster?_eq_some_iff.2 ⟨rfl, hrest⟩
  have hkey : cluster ∉ set.keys := fun hkey => hother cluster hkey rfl
  by_cases hdeleted : ClusterFile.name cluster ∈ report.deleted
  · rw [h.get?_deleted _ hdeleted] at hfile
    cases hfile
  · have hsame := h.get?_name_of_not_mem hkey hdeleted
    -- It was there before, so it was stale.
    have hstale := (isStale_iff hcluster (hsame ▸ hfile)).2 ⟨clean, hkey⟩
    exact hdeleted ((h.mem_deleted _).2 ⟨hstale, free, rfl⟩)

theorem publishable_of_complete
    (complete : ∀ cluster ∈ set.keys, ClusterFile.name cluster ∈ report.written) :
    ∀ cluster ∈ set.keys, IsPublishable cluster := by
  intro cluster hkey
  obtain ⟨c, -, hpub, hname, -⟩ := h.mem_written.1 (complete cluster hkey)
  exact ClusterFile.name_inj.1 hname ▸ hpub

/-- **Publishing the set once more** writes the same files, deletes nothing and changes nothing. -/
theorem eq_of_again {scratch' : String} {again : FileTree} {report' : Report}
    (complete : ∀ cluster ∈ set.keys, ClusterFile.name cluster ∈ report.written)
    (h' : Published w .none scratch' set dir after again report') :
    again = after ∧ report'.written = report.written ∧ report'.deleted = [] := by
  have hpub := h.publishable_of_complete complete
  have hplace : ∀ cluster data, set.get? cluster = some data →
      after.get? (dir ++ [ClusterFile.name cluster]) = some (.file (bodyBytes data)) :=
    fun cluster data hget =>
      h.get?_written hget (complete cluster (Table.mem_keys_iff_exists.2 ⟨data, hget⟩))
  have hwritten : ∀ cluster ∈ set.keys, ClusterFile.name cluster ∈ report'.written := by
    intro cluster hkey
    obtain ⟨data, hget⟩ := Table.mem_keys_iff_exists.1 hkey
    exact h'.mem_written.2 ⟨cluster, hkey, hpub cluster hkey, rfl, by simp [hplace _ _ hget]⟩
  have hdeleted : report'.deleted = [] := by
    refine List.eq_nil_iff_forall_not_mem.2 fun file hfile => ?_
    obtain ⟨hstale, free, -⟩ := (h'.mem_deleted file).1 hfile
    obtain ⟨bytes, hplain⟩ := hstale.plain
    refine h.get?_ne_file_of_clean hstale.1 hstale.isName free (fun cluster hkey heq => ?_) bytes
      hplain
    exact Table.not_mem_keys_iff.2 (hstale.get?_eq_none heq) hkey
  refine ⟨Table.ext_get? fun place => ?_, ?_, hdeleted⟩
  · by_cases hours : ∃ cluster ∈ set.keys, place = dir ++ [ClusterFile.name cluster] ∨
        place = dir ++ [ClusterFile.hidden (ClusterFile.name cluster)]
    · obtain ⟨cluster, hkey, rfl | rfl⟩ := hours
      · obtain ⟨data, hget⟩ := Table.mem_keys_iff_exists.1 hkey
        rw [h'.get?_written hget (hwritten cluster hkey), hplace _ _ hget]
      · rw [h'.get?_hidden_of_isPublishable hkey (hpub cluster hkey),
          h.get?_hidden_of_isPublishable hkey (hpub cluster hkey)]
    · refine h'.get?_of_forall_ne (fun file hfile heq => ?_) (by simp [hdeleted])
        fun cluster hkey _ heq => hours ⟨cluster, hkey, .inr heq⟩
      obtain ⟨cluster, hkey, -, rfl, -⟩ := h'.mem_written.1 hfile
      exact hours ⟨cluster, hkey, .inl heq⟩
  · refine Text.eq_of_pairwise_lt h'.sorted_written h.sorted_written fun file => ⟨?_, ?_⟩
    · intro hfile
      obtain ⟨cluster, hkey, -, rfl, -⟩ := h'.mem_written.1 hfile
      exact complete cluster hkey
    · intro hfile
      obtain ⟨cluster, hkey, -, rfl, -⟩ := h.mem_written.1 hfile
      exact hwritten cluster hkey

end Published

/-- Publishes in turn leave a directory that can receive whatever it could receive before. -/
theorem receives_publishAll {ps : List Publication} {p : Publication}
    (hps : ∀ q ∈ ps, Receives dir tree q) (hp : Receives dir tree p) :
    Receives dir (publishAll ps tree) p := by
  induction ps generalizing tree with
  | nil => exact hp
  | cons q ps ih =>
    have hq := hps q (List.mem_cons_self ..)
    obtain ⟨middle, report, ok⟩ := hq.exists_run_eq_ok
    have hstep {r : Publication} (hr : Receives dir tree r) : Receives dir middle r :=
      (hq.published ok).receives hq.target.directory? hr
    have hmiddle : publishAll (q :: ps) tree = publishAll ps middle := by
      rw [publishAll, List.foldl_cons, ok]
      rfl
    rw [hmiddle]
    exact ih (fun r hr => hstep (hps r (List.mem_cons_of_mem _ hr))) (hstep hp)

/-- **The output depends on the last set only.** Publish sets into a directory in turn, by any
writers; let the last one clean up and write all of its set. Then the unprotected cluster files
are those of that set alone, with the bytes that they get in an empty directory, and publishing it
once more writes the same files, deletes nothing and leaves the whole tree as it is. -/
theorem lastPublish_determines {ps : List Publication} {last : Publication}
    (earlier : ∀ p ∈ ps, Receives dir tree p) (receives : Receives dir tree last)
    (ok : last.run (publishAll ps tree) = (after, .ok report))
    (clean : last.writer.clean = true)
    (complete : ∀ cluster ∈ last.set.keys, ClusterFile.name cluster ∈ report.written) :
    (∀ {w' : Writer} {tree' : FileTree} {dir' : Place} (scratch' : String),
      tree'.HasEntryNames → tree'.directory? w'.directory = some dir' → tree'.list dir' = [] →
      ∃ fresh report', w'.publish scratch' last.set tree' = (fresh, .ok report') ∧
        ∀ file bytes, ClusterFile.isName file = true → last.writer.isProtected file = false →
          (after.get? (dir ++ [file]) = some (.file bytes) ↔
            fresh.get? (dir' ++ [file]) = some (.file bytes))) ∧
    ∀ scratch', ∃ report',
      { last with scratch := scratch' }.run after = (after, .ok report') ∧
        report'.written = report.written ∧ report'.deleted = [] := by
  have hbefore := receives_publishAll earlier receives
  have h := hbefore.published ok
  refine ⟨fun {w' tree' dir'} scratch' names' target' vacant => ?_, fun scratch' => ?_⟩
  · obtain ⟨fresh, report', ok'⟩ := exists_publish_eq_ok w' scratch' last.set target'
    have leads' : tree'.LeadsTo w'.directory dir' :=
      FileTree.leadsTo_of_vacant target' (get?_of_list_eq_nil vacant)
    have h' := published_of_publish names' leads' (hiddenWritable_of_list_eq_nil vacant) ok'
    have complete' : ∀ cluster ∈ last.set.keys, ClusterFile.name cluster ∈ report'.written :=
      fun cluster hkey => h'.mem_written.2 ⟨cluster, hkey, h.publishable_of_complete complete
        cluster hkey, rfl, by simp [get?_of_list_eq_nil vacant]⟩
    refine ⟨fresh, report', ok', fun file bytes hname free => ?_⟩
    rw [h.get?_file_iff complete fun hother =>
        h.get?_ne_file_of_clean clean hname free hother bytes,
      h'.get?_file_iff complete' fun hother => ?_]
    obtain ⟨cluster, rfl, -⟩ := ClusterFile.isName_iff.1 hname
    rw [h'.get?_eq_none vacant fun hkey => hother cluster hkey rfl]
    exact nofun
  · have hagain : Receives dir after { last with scratch := scratch' } :=
      h.receives hbefore.target.directory? ⟨hbefore.names, hbefore.target, hbefore.hidden⟩
    obtain ⟨again, report', ok'⟩ := hagain.exists_run_eq_ok
    obtain ⟨rfl, hwritten, hdeleted⟩ := h.eq_of_again complete (hagain.published ok')
    exact ⟨report', ok', hwritten, hdeleted⟩

/-- The sample set, published where an earlier publish was interrupted. -/
def samplePublication : Publication where
  writer := sampleWriter
  scratch := "first"
  set := sampleSet

/-- A set that the same writer can publish in full. -/
def webPublication : Publication where
  writer := sampleWriter
  scratch := "second"
  set := .ofList [("web", .ofList [(clusterKey, .one (.text "w2"))])]

theorem receives_sampleTree {p : Publication} (hwriter : p.writer = sampleWriter)
    (hidden : HiddenWritable ["out"] sampleTree p.set) : Receives ["out"] sampleTree p where
  names := by decide +kernel
  target := by
    rw [hwriter]
    exact FileTree.leadsTo_entryName (by decide) (by decide +kernel)
  hidden := hidden

/-- The hypotheses of `lastPublish_determines` are satisfiable, with a directory that has a file
of a cluster that is gone, a protected one, a link and a directory under the names of others. -/
theorem lastPublish_determines_sample :
    ∃ after report fresh report' report'',
      webPublication.run (publishAll [samplePublication] sampleTree) = (after, .ok report) ∧
      mirrorWriter.publish "third" webPublication.set vacantTree = (fresh, .ok report') ∧
      (∀ file bytes, ClusterFile.isName file = true → file ≠ "version.yaml" →
        (after.get? ["out", file] = some (.file bytes) ↔
          fresh.get? ["mirror", file] = some (.file bytes))) ∧
      webPublication.run after = (after, .ok report'') ∧ report''.written = report.written ∧
      report''.deleted = [] := by
  have first : Receives ["out"] sampleTree samplePublication :=
    receives_sampleTree rfl (by decide +kernel)
  have last : Receives ["out"] sampleTree webPublication :=
    receives_sampleTree rfl (by decide +kernel)
  have earlier : ∀ p ∈ [samplePublication], Receives ["out"] sampleTree p := by
    simpa using first
  obtain ⟨middle, report₁, ok₁⟩ := first.exists_run_eq_ok
  have hmiddle : publishAll [samplePublication] sampleTree = middle := by
    rw [publishAll, List.foldl_cons, ok₁]
    rfl
  obtain ⟨after, report, ok⟩ := (receives_publishAll earlier last).exists_run_eq_ok
  -- The first publish puts a file in the place of the link.
  have hweb : middle.get? ["out", "web.yaml"] ≠ some .directory := by
    obtain ⟨data, hget⟩ : ∃ data, samplePublication.set.get? "web" = some data :=
      Table.mem_keys_iff_exists.1 (by decide +kernel)
    have hplace := (first.published ok₁).get?_written hget
      ((first.published ok₁).mem_written.2
        ⟨"web", by decide +kernel, by decide +kernel, rfl, by decide +kernel⟩)
    change middle.get? ["out", "web.yaml"] = _ at hplace
    simp [hplace]
  have complete : ∀ cluster ∈ webPublication.set.keys,
      ClusterFile.name cluster ∈ report.written := by
    have hkeys : webPublication.set.keys = ["web"] := by decide +kernel
    have h := (receives_publishAll earlier last).published ok
    intro cluster hkey
    obtain rfl : cluster = "web" := by simpa [hkeys] using hkey
    exact h.mem_written.2 ⟨"web", hkey, by decide +kernel, rfl, hmiddle ▸ hweb⟩
  have names : vacantTree.HasEntryNames := by decide +kernel
  have mirror : vacantTree.directory? mirrorWriter.directory = some ["mirror"] :=
    FileTree.directory?_entryName (by decide) (by decide +kernel)
  have vacant : vacantTree.list ["mirror"] = [] := by decide +kernel
  obtain ⟨hfiles, hagain⟩ := lastPublish_determines earlier last ok rfl complete
  obtain ⟨fresh, report', ok', hsame⟩ := hfiles "third" names mirror vacant
  obtain ⟨report'', ok'', hwritten, hdeleted⟩ := hagain "second"
  refine ⟨after, report, fresh, report', report'', ok, ok', fun file bytes hname hfree => ?_, ok'',
    hwritten, hdeleted⟩
  exact hsame file bytes hname (by simpa [webPublication, sampleWriter] using hfree)

end Publish
end ClusterSync
