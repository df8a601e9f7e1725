/-
# What can be seen while a set is published

A publish is stopped at some moment: between two of its actions, or in the middle of writing
under a hidden name (`IsCut`). What is then seen of a directory is what the actions so far
have made of it.

The log of a publish is orderly (`Orderly`): a hidden file takes its place only right after a
whole body has been written under that name, and nothing but stale files is deleted. Each
action of an orderly log, whether it can be done or not, keeps what `Generations` says of the
cluster files, so no moment breaks it (`Orderly.generations`).

The bodies that go out are whole if those that were collected are. A body that has been
collected in part goes out as it is.
-/

import ClusterSync.Proofs.Publish.FinalState
import ClusterSync.Proofs.Publish.Log

namespace ClusterSync
namespace Publish

open Files

variable {w : Writer} {faults : Faults} {dir : Place} {scratch file : String}
  {bytes : ByteArray} {set : ClusterSet} {files : Staged} {gone : String → Prop}
  {before tree : FileTree} {p : Progress} {log cut : List Action}

/-- Is this what has been done of a log at some moment? A write may have been cut short. -/
inductive IsCut : List Action → List Action → Prop
  | stop (log : List Action) : IsCut log []
  | torn (file : String) (bytes : ByteArray) (n : Nat) (log : List Action) :
    IsCut (.fill file bytes :: log) [.fill file (firstBytes bytes n)]
  | next (a : Action) {log cut : List Action} (h : IsCut log cut) : IsCut (a :: log) (a :: cut)

/-- So it is the beginning of the log, or the beginning with the first bytes of the next
write. -/
theorem isCut_iff : IsCut log cut ↔ cut <+: log ∨ ∃ done file bytes n,
    done ++ [.fill file bytes] <+: log ∧ cut = done ++ [.fill file (firstBytes bytes n)] := by
  constructor
  · intro h
    induction h with
    | stop log => exact .inl List.nil_prefix
    | torn file bytes n log => exact .inr ⟨[], file, bytes, n, ⟨log, rfl⟩, rfl⟩
    | next a h ih =>
      rcases ih with hpre | ⟨done, file, bytes, n, hpre, rfl⟩
      · exact .inl ((List.prefix_cons_inj a).2 hpre)
      · exact .inr ⟨a :: done, file, bytes, n, (List.prefix_cons_inj a).2 hpre, rfl⟩
  · rintro (⟨rest, rfl⟩ | ⟨done, file, bytes, n, ⟨rest, rfl⟩, rfl⟩)
    · induction cut with
      | nil => exact .stop rest
      | cons a cut ih => exact .next a ih
    · induction done with
      | nil => exact .torn file bytes n rest
      | cons a done ih => exact .next a ih

/-- Logs of publishes. `files` are the bodies that go out, and `gone` the files that may be
deleted. -/
inductive Orderly (files : Staged) (gone : String → Prop) : List Action → Prop
  | nil : Orderly files gone []
  /-- A body goes out. -/
  | replace {file : String} {bytes : ByteArray} {log : List Action}
    (body : files.get? file = some bytes)
    (allowed : nameError? (ClusterFile.hidden file) = none) (rest : Orderly files gone log) :
    Orderly files gone (.fill file bytes :: .promote file :: log)
  /-- Anything is written under a hidden name, and stays there for now. -/
  | fill {file : String} (part : ByteArray) {log : List Action}
    (sent : files.contains file = true)
    (allowed : nameError? (ClusterFile.hidden file) = none) (rest : Orderly files gone log) :
    Orderly files gone (.fill file part :: log)
  | discard {file : String} {log : List Action} (sent : files.contains file = true)
    (allowed : nameError? (ClusterFile.hidden file) = none) (rest : Orderly files gone log) :
    Orderly files gone (.discard file :: log)
  | delete {file : String} {log : List Action} (stale : gone file)
    (rest : Orderly files gone log) : Orderly files gone (.delete file :: log)

/-- All that a replacement does is orderly. -/
theorem Replacement.orderly {actions : List Action} {after : FileTree}
    {result : Except OsError Unit}
    (h : Replacement faults dir file bytes tree actions after result)
    (body : files.get? file = some bytes) (rest : Orderly files gone log) :
    Orderly files gone (actions ++ log) := by
  have sent : files.contains file = true := Table.contains_iff.2 ⟨bytes, body⟩
  cases h with
  | replaced hg => exact .replace body (goesOut_iff.1 hg).2.2.1 rest
  | untouched e hg => exact rest
  | tidied e hg allowed => exact .discard sent allowed rest
  | undone e part hg allowed => exact .fill part sent allowed (.discard sent allowed rest)
  | abandoned e part hg allowed => exact .fill part sent allowed rest

theorem Replacements.orderly {entries : List (String × ByteArray)} {actions : List Action}
    {after : FileTree} {written failed : List String}
    (h : Replacements faults dir tree entries actions after written failed)
    (bodies : ∀ e ∈ entries, files.get? e.1 = some e.2) (rest : Orderly files gone log) :
    Orderly files gone (actions ++ log) := by
  induction h with
  | nil tree => exact rest
  | cons step next ih =>
    rw [List.append_assoc]
    exact step.orderly (bodies _ (List.mem_cons_self ..))
      (ih fun e he => bodies e (List.mem_cons_of_mem _ he))

theorem orderly_map_delete {deleted : List String} (h : ∀ file ∈ deleted, gone file) :
    Orderly files gone (deleted.map .delete) := by
  induction deleted with
  | nil => exact .nil
  | cons file rest ih =>
    exact .delete (h file (List.mem_cons_self ..)) (ih fun f hf => h f (List.mem_cons_of_mem _ hf))

theorem Action.next_fill (hh : IsEntryName (ClusterFile.hidden file))
    (hw : tree.IsWritable (dir ++ [ClusterFile.hidden file])) :
    (Action.fill file bytes).next dir tree =
      tree.insert (dir ++ [ClusterFile.hidden file]) (.file bytes) := by
  have happly : (Action.fill file bytes).apply dir tree = _ :=
    FileTree.write_bare hh.toIsBare hw bytes
  rw [hh.allowed] at happly
  rw [Action.next, happly]

theorem Action.next_promote (hf : IsEntryName file) (hh : IsEntryName (ClusterFile.hidden file))
    (hget : tree.get? (dir ++ [ClusterFile.hidden file]) = some (.file bytes)) :
    (Action.promote file).next dir tree = tree ∨
      (Action.promote file).next dir tree =
        (tree.erase (dir ++ [ClusterFile.hidden file])).insert (dir ++ [file]) (.file bytes) := by
  have happly : (Action.promote file).apply dir tree = _ := FileTree.rename_entryName hh hf
  rw [hget] at happly
  rw [Action.next, happly]
  cases tree.get? (dir ++ [file]) with
  | none => exact .inr rfl
  | some entry =>
    cases entry with
    | directory => exact .inl rfl
    | file old => exact .inr rfl
    | link target => exact .inr rfl

theorem Action.next_discard (hh : IsEntryName (ClusterFile.hidden file)) :
    (Action.discard file).next dir tree = tree ∨
      (Action.discard file).next dir tree = tree.erase (dir ++ [ClusterFile.hidden file]) := by
  rw [Action.next]
  rcases FileTree.remove_cases hh with ⟨e, happly⟩ | happly
  · exact .inl (by rw [Action.apply, happly])
  · exact .inr (by rw [Action.apply, happly])

theorem Action.next_delete (hf : IsEntryName file) :
    (Action.delete file).next dir tree = tree ∨
      (Action.delete file).next dir tree = tree.erase (dir ++ [file]) := by
  rw [Action.next]
  rcases FileTree.remove_cases hf with ⟨e, happly⟩ | happly
  · exact .inl (by rw [Action.apply, happly])
  · exact .inr (by rw [Action.apply, happly])

/-- Every cluster file is the old one, or the new one in full, or has been deleted for a
reason. The hidden places can still be written. -/
structure Generations (files : Staged) (gone : String → Prop) (dir : Place)
    (before tree : FileTree) : Prop where
  writable : ∀ file, files.contains file = true →
    tree.IsWritable (dir ++ [ClusterFile.hidden file])
  entry : ∀ file, ClusterFile.isName file = true →
    tree.get? (dir ++ [file]) = before.get? (dir ++ [file]) ∨
    (∃ bytes, files.get? file = some bytes ∧ tree.get? (dir ++ [file]) = some (.file bytes)) ∨
    (gone file ∧ tree.get? (dir ++ [file]) = none)

namespace Generations

variable (h : Generations files gone dir before tree)

include h

/-- What stands under a hidden name is no cluster file. -/
theorem insert_hidden (file : String) (part : ByteArray) :
    Generations files gone dir before
      (tree.insert (dir ++ [ClusterFile.hidden file]) (.file part)) where
  writable other hother := (h.writable other hother).insert _ _
  entry other hname := by
    have hne : dir ++ [ClusterFile.hidden file] ≠ dir ++ [other] := by
      simpa using ClusterFile.hidden_ne_of_isName hname
    rw [Table.get?_insert, if_neg hne]
    exact h.entry other hname

theorem erase_hidden (file : String) :
    Generations files gone dir before (tree.erase (dir ++ [ClusterFile.hidden file])) where
  writable other hother := (h.writable other hother).erase _
  entry other hname := by
    have hne : dir ++ [other] ≠ dir ++ [ClusterFile.hidden file] := by
      simpa using (ClusterFile.hidden_ne_of_isName hname).symm
    rw [Table.get?_erase, if_neg hne]
    exact h.entry other hname

theorem insert_body (body : files.get? file = some bytes) :
    Generations files gone dir before (tree.insert (dir ++ [file]) (.file bytes)) where
  writable other hother := (h.writable other hother).insert _ _
  entry other hname := by
    rw [Table.get?_insert]
    split
    · next heq =>
      obtain rfl : file = other := by simpa using heq
      exact .inr (.inl ⟨bytes, body, rfl⟩)
    · exact h.entry other hname

theorem erase_stale (stale : gone file) :
    Generations files gone dir before (tree.erase (dir ++ [file])) where
  writable other hother := (h.writable other hother).erase _
  entry other hname := by
    rw [Table.get?_erase]
    split
    · next heq =>
      obtain rfl : other = file := by simpa using heq
      exact .inr (.inr ⟨stale, rfl⟩)
    · exact h.entry other hname

/-- **Each action keeps the cluster files whole.** -/
theorem fill (hh : IsEntryName (ClusterFile.hidden file)) (sent : files.contains file = true)
    (part : ByteArray) :
    Generations files gone dir before ((Action.fill file part).next dir tree) := by
  rw [Action.next_fill hh (h.writable file sent)]
  exact h.insert_hidden file part

/-- A hidden file only takes its place after it has been written in full. -/
theorem fill_promote (hf : IsEntryName file) (hh : IsEntryName (ClusterFile.hidden file))
    (body : files.get? file = some bytes) :
    Generations files gone dir before
      ((Action.promote file).next dir ((Action.fill file bytes).next dir tree)) := by
  have sent : files.contains file = true := Table.contains_iff.2 ⟨bytes, body⟩
  have hfill := h.insert_hidden file bytes
  rw [Action.next_fill hh (h.writable file sent)]
  rcases Action.next_promote hf hh ((Table.get?_insert ..).trans (if_pos rfl)) with hp | hp
  · rwa [hp]
  · rw [hp]
    exact (hfill.erase_hidden file).insert_body body

theorem discard (hh : IsEntryName (ClusterFile.hidden file)) :
    Generations files gone dir before ((Action.discard file).next dir tree) := by
  rcases Action.next_discard hh with hd | hd
  · rwa [hd]
  · rw [hd]
    exact h.erase_hidden file

theorem delete (hf : IsEntryName file) (stale : gone file) :
    Generations files gone dir before ((Action.delete file).next dir tree) := by
  rcases Action.next_delete hf with hd | hd
  · rwa [hd]
  · rw [hd]
    exact h.erase_stale stale

end Generations

/-- **No moment of an orderly log breaks a cluster file.** -/
theorem Orderly.generations (hlog : Orderly files gone log) (hcut : IsCut log cut)
    (hfiles : ∀ file, files.contains file = true → IsEntryName file)
    (hgone : ∀ file, gone file → IsEntryName file)
    (h : Generations files gone dir before tree) :
    Generations files gone dir before (applyAll dir cut tree) := by
  have hhidden : ∀ {file}, files.contains file = true →
      nameError? (ClusterFile.hidden file) = none → IsEntryName (ClusterFile.hidden file) :=
    fun sent allowed => ⟨ClusterFile.isBare_hidden (hfiles _ sent).noSlash, allowed⟩
  induction hlog generalizing cut tree with
  | nil =>
    cases hcut
    exact h
  | replace body allowed rest ih =>
    have sent := Table.contains_iff.2 ⟨_, body⟩
    cases hcut with
    | stop => exact h
    | torn => exact h.fill (hhidden sent allowed) sent _
    | next a hcut =>
      cases hcut with
      | stop => exact h.fill (hhidden sent allowed) sent _
      | next a hcut =>
        rw [applyAll_cons, applyAll_cons]
        exact ih hcut (h.fill_promote (hfiles _ sent) (hhidden sent allowed) body)
  | fill part sent allowed rest ih =>
    cases hcut with
    | stop => exact h
    | torn => exact h.fill (hhidden sent allowed) sent _
    | next a hcut =>
      rw [applyAll_cons]
      exact ih hcut (h.fill (hhidden sent allowed) sent part)
  | discard sent allowed rest ih =>
    cases hcut with
    | stop => exact h
    | next a hcut =>
      rw [applyAll_cons]
      exact ih hcut (h.discard (hhidden sent allowed))
  | delete stale rest ih =>
    cases hcut with
    | stop => exact h
    | next a hcut =>
      rw [applyAll_cons]
      exact ih hcut (h.delete (hgone _ stale) stale)

/-- May a file be deleted by a publish? -/
def IsGone (w : Writer) (set : ClusterSet) (dir : Place) (tree : FileTree) (file : String) : Prop :=
  IsStale w set dir tree file ∧ w.isProtected file = false

/-- The log of a publish is orderly, whatever goes wrong. -/
theorem orderly_of_publishUnder {result : Except Failure Report} (names : tree.HasEntryNames)
    (target : tree.directory? w.directory = some dir) (hidden : HiddenWritable dir tree set)
    (run : w.publishUnder faults scratch set tree = (p, result)) :
    Orderly (collected faults scratch set) (IsGone w set dir tree) p.log := by
  cases result with
  | error e =>
    rw [publishUnder_eq_error run]
    exact .nil
  | ok report =>
    obtain ⟨reached, -, hpublished⟩ := published_of_publishUnder names target hidden run
    obtain ⟨rfl, rfl⟩ := publishUnder_eq_ok target run
    obtain ⟨reached', -, log, hlog, hsteps⟩ := (exists_replacements (p := ⟨tree, []⟩) faults
      (collected faults scratch set).nodup_keys hidden.isSendable
      fun place hplace => Option.some.inj (hplace.symm.trans target)).exists_reached
    rw [log_deleteAll, hlog, List.nil_append]
    refine hsteps.orderly (fun e he => Table.mem_entries_iff.1 he) (orderly_map_delete ?_)
    intro file hm
    obtain ⟨hstale, hfree, -⟩ := (hpublished.mem_deleted file).1 hm
    exact ⟨hstale, hfree⟩

/-- **At every moment of a publish each cluster file is whole.** Whatever has been done of the
log, also with a write that was cut short, the file of a cluster is what it was before, or the
whole body of its cluster in the new set, or it has been deleted as stale. The actions on the
directory may fail as they like, and leave any part of what they were to write. -/
theorem publish_moments {result : Except Failure Report} (whole : CollectsWhole faults)
    (names : tree.HasEntryNames) (target : tree.directory? w.directory = some dir)
    (hidden : HiddenWritable dir tree set)
    (run : w.publishUnder faults scratch set tree = (p, result)) :
    applyAll dir p.log tree = p.tree ∧
    ∀ cut, IsCut p.log cut → ∀ file cluster, ClusterFile.cluster? file = some cluster →
      (applyAll dir cut tree).get? (dir ++ [file]) = tree.get? (dir ++ [file]) ∨
      (∃ data, set.get? cluster = some data ∧
        (applyAll dir cut tree).get? (dir ++ [file]) =
          some (.file (Attributes.body data).toUTF8)) ∨
      ((applyAll dir cut tree).get? (dir ++ [file]) = none ∧ w.clean = true ∧
        cluster ∉ set.keys ∧ w.isProtected file = false) := by
  refine ⟨publishUnder_follows target hidden run, fun cut hcut file cluster hcluster => ?_⟩
  have hsendable : ∀ file, (collected faults scratch set).contains file = true →
      IsSendable dir tree file := by
    intro file hcontains
    obtain ⟨bytes, hget⟩ := Table.contains_iff.1 hcontains
    exact hidden.isSendable _ (Table.mem_entries_iff.2 hget)
  have hgone : ∀ file, IsGone w set dir tree file → IsEntryName file := by
    rintro file ⟨hstale, -⟩
    obtain ⟨bytes, hplain⟩ := hstale.plain
    exact names _ _ hplain file (by simp)
  have hstart : Generations (collected faults scratch set) (IsGone w set dir tree) dir tree tree :=
    ⟨fun file hcontains => (hsendable file hcontains).writable, fun _ _ => .inl rfl⟩
  have hmoment := (orderly_of_publishUnder names target hidden run).generations hcut
    (fun file hcontains => (hsendable file hcontains).entryName) hgone hstart
  obtain ⟨hfile, -, -⟩ := ClusterFile.cluster?_eq_some_iff.1 hcluster
  have hname : ClusterFile.isName file = true := by
    rw [ClusterFile.isName, hcluster, Option.isSome_some]
  rcases hmoment.entry file hname with hsame | ⟨bytes, hbody, hseen⟩ | ⟨⟨hstale, hfree⟩, hseen⟩
  · exact .inl hsame
  · obtain ⟨other, data, hget, hother, -, hleft⟩ := get?_collected.1 hbody
    obtain rfl := ClusterFile.name_inj.1 (hfile.symm.trans hother)
    rw [left?_of_collectsWhole whole, Option.ite_none_left_eq_some] at hleft
    obtain rfl := Option.some.inj hleft.2
    exact .inr (.inl ⟨data, hget, hseen⟩)
  · exact .inr (.inr ⟨hseen, hstale.1,
      Table.not_mem_keys_iff.2 (hstale.get?_eq_none hfile), hfree⟩)

/-- A disk that takes three bytes of each file. -/
def fullDisk : Faults where
  copy _ := some ⟨some 3, .other "No space left on device (os error 28)"⟩

/-- The hypotheses of `publish_moments` are satisfiable, also where things go wrong: on a full
disk the link in the place of a file is there at every moment, or the whole body. -/
theorem publish_moments_fullDisk :
    ∃ p result, sampleWriter.publishUnder fullDisk "scratch" sampleSet sampleTree = (p, result) ∧
      ∀ cut, IsCut p.log cut →
        (applyAll ["out"] cut sampleTree).get? ["out", "web.yaml"] = some (.link "old.yaml") ∨
        ∃ data, sampleSet.get? "web" = some data ∧
          (applyAll ["out"] cut sampleTree).get? ["out", "web.yaml"] =
            some (.file (Attributes.body data).toUTF8) := by
  have whole : CollectsWhole fullDisk := by
    intro file torn h
    cases h
  have names : sampleTree.HasEntryNames := by decide +kernel
  have hidden : HiddenWritable ["out"] sampleTree sampleSet := by decide +kernel
  refine ⟨_, _, rfl, fun cut hcut => ?_⟩
  have hold : sampleTree.get? ["out", "web.yaml"] = some (.link "old.yaml") := by decide +kernel
  have hmoment := (publish_moments whole names sampleTree_directory? hidden rfl).2 cut hcut
    "web.yaml" "web" (by decide +kernel)
  rcases hmoment with hsame | hbody | ⟨-, -, hgone, -⟩
  · exact .inl (hsame.trans hold)
  · exact .inr hbody
  · exact absurd (by decide +kernel) hgone

end Publish
end ClusterSync
