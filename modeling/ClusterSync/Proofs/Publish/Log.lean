/-
# What the log of a publish tells

The log tells all that has been done: the tree afterwards is the tree before with the actions of
the log applied in turn (`Progress.Follows`). Doing an action keeps that, whether it succeeds or
fails (`Progress.act_cases`), and all that a publish does to a tree it does by actions in one
directory (`publishUnder_follows`): the path leads there or nowhere, as long as no link comes about
that stood under a hidden name before.
-/

import ClusterSync.Proofs.Publish.Report

namespace ClusterSync
namespace Publish

open Files

variable {w : Writer} {faults : Faults} {fault : Option OsError} {dir : Place}
  {directory scratch file : String} {bytes : ByteArray} {set : ClusterSet}
  {before tree : FileTree} {p : Progress} {a : Action} {log : List Action}

/-- The tree after an action, which is left out if it cannot be done. -/
def Action.next (dir : Place) (tree : FileTree) (a : Action) : FileTree :=
  match a.apply dir tree with
  | .ok tree => tree
  | .error _ => tree

theorem applyAll_cons : applyAll dir (a :: log) tree = applyAll dir log (a.next dir tree) := rfl

theorem applyAll_concat :
    applyAll dir (log ++ [a]) tree = a.next dir (applyAll dir log tree) := by
  rw [applyAll, List.foldl_append]
  rfl

namespace Progress

/-- Has what the log says been done to a tree, and nothing else? -/
def Follows (p : Progress) (dir : Place) (before : FileTree) : Prop :=
  applyAll dir p.log before = p.tree

theorem Follows.act (h : p.Follows dir before) : (p.act dir fault a).1.Follows dir before := by
  rcases act_cases p dir fault a with ⟨tree, hok, hact⟩ | ⟨e, hact⟩
  · rw [hact, Follows, applyAll_concat, h, Action.next, hok]
  · rwa [hact]

theorem Follows.fill (h : p.Follows dir before) (torn : Option Torn) :
    (p.fill dir torn file bytes).1.Follows dir before := by
  rcases torn with - | ⟨- | n, e⟩
  · exact h.act
  · exact h
  · have hact : (p.act dir none (.fill file (firstBytes bytes n))).1.Follows dir before := h.act
    simp only [Progress.fill]
    split
    · next heq => rwa [heq] at hact
    · next heq => rwa [heq] at hact

theorem Follows.tidy (h : p.Follows dir before) :
    (p.tidy dir fault file).Follows dir before := by
  rw [Progress.tidy]
  split
  · exact h.act
  · exact h

theorem Follows.replace (h : p.Follows dir before) :
    (p.replace dir faults file (.ok bytes)).1.Follows dir before := by
  have hfill : (p.fill dir (faults.copy file) file bytes).1.Follows dir before := h.fill _
  simp only [Progress.replace]
  refine Follows.tidy ?_
  split
  · next heq => rwa [heq] at hfill
  · next heq =>
    rw [heq] at hfill
    exact hfill.act

theorem Follows.replaceIn (h : p.Follows dir before)
    (hreach : ∀ place, p.tree.directory? directory = some place → place = dir) :
    (p.replaceIn directory faults file bytes).1.Follows dir before := by
  rw [Progress.replaceIn]
  cases hdir : p.tree.directory? directory with
  | none => exact h
  | some place =>
    obtain rfl := hreach place hdir
    exact h.replace

theorem Follows.deleteIn (h : p.Follows dir before)
    (hreach : ∀ place, p.tree.directory? directory = some place → place = dir) :
    (p.deleteIn directory fault file).1.Follows dir before := by
  rw [Progress.deleteIn]
  cases hdir : p.tree.directory? directory with
  | none => exact h
  | some place =>
    obtain rfl := hreach place hdir
    exact h.act

/-- Deleting brings no directory and no link about. -/
theorem deleteIn_onlyWaysOf (p : Progress) (directory : String) (fault : Option OsError)
    (file : String) : (p.deleteIn directory fault file).1.tree.OnlyWaysOf p.tree := by
  rcases p.deleteIn_cases directory fault file with ⟨dir, tree, -, happly, hdelete⟩ | ⟨e, hdelete⟩
  · rw [hdelete]
    exact FileTree.onlyWaysOf_of_remove happly
  · rw [hdelete]
    exact .refl p.tree

end Progress

/-- What the first file leads to is what the others start from. -/
theorem replaceAll_cons_fst (rest : List (String × ByteArray)) :
    (replaceAll faults directory p ((file, bytes) :: rest)).1 =
      (replaceAll faults directory (p.replaceIn directory faults file bytes).1 rest).1 := by
  cases h : p.replaceIn directory faults file bytes with
  | mk next result =>
    rw [replaceAll, h]
    cases result <;> rfl

theorem follows_replaceAll (files : List (String × ByteArray)) (h : p.Follows dir before)
    (hs : ∀ e ∈ files, IsSendable dir p.tree e.1)
    (hreach : ∀ place, p.tree.directory? directory = some place → place = dir) :
    (replaceAll faults directory p files).1.Follows dir before := by
  induction files generalizing p with
  | nil => exact h
  | cons e rest ih =>
    obtain ⟨actions, tree, result, hreplace, hstep⟩ :=
      Progress.exists_replacementIn (hs _ (List.mem_cons_self ..)) hreach faults e.2
    have hways := (hstep (fun _ => (p.tree.directory? directory).isSome) rfl).onlyWaysOf
    have hnext : (p.replaceIn directory faults e.1 e.2).1.Follows dir before := h.replaceIn hreach
    rw [replaceAll_cons_fst]
    rw [hreplace] at hnext ⊢
    exact ih hnext (fun e he => (hs e (List.mem_cons_of_mem _ he)).of_onlyWaysOf hways)
      fun place hplace => hreach place (FileTree.directory?_of_onlyWaysOf hways hplace)

theorem deleteAll_cons_fst (rest : List String) :
    (deleteAll faults directory p (file :: rest)).1 =
      (deleteAll faults directory (p.deleteIn directory (faults.delete file) file).1 rest).1 := by
  cases h : p.deleteIn directory (faults.delete file) file with
  | mk next result =>
    rw [deleteAll, h]
    cases result <;> rfl

theorem follows_deleteAll (files : List String) (h : p.Follows dir before)
    (hreach : ∀ place, p.tree.directory? directory = some place → place = dir) :
    (deleteAll faults directory p files).1.Follows dir before := by
  induction files generalizing p with
  | nil => exact h
  | cons file rest ih =>
    have hways := p.deleteIn_onlyWaysOf directory (faults.delete file) file
    rw [deleteAll_cons_fst]
    exact ih (h.deleteIn hreach) fun place hplace =>
      hreach place (FileTree.directory?_of_onlyWaysOf hways hplace)

/-- The log of a run of deletions lists what has been deleted. -/
theorem log_deleteAll (files : List String) :
    (deleteAll faults directory p files).1.log =
      p.log ++ (deleteAll faults directory p files).2.1.map .delete := by
  induction files generalizing p with
  | nil => exact (List.append_nil _).symm
  | cons file rest ih =>
    rw [deleteAll]
    rcases p.deleteIn_cases directory (faults.delete file) file with
      ⟨dir, tree, -, -, hdelete⟩ | ⟨e, hdelete⟩
    · simp only [hdelete, ih, List.map_cons, List.append_assoc, List.singleton_append]
    · simp only [hdelete, ih]

/-- A publish that ends badly has done nothing. -/
theorem publishUnder_eq_error {e : Failure}
    (h : w.publishUnder faults scratch set tree = (p, .error e)) : p = ⟨tree, []⟩ := by
  rw [Writer.publishUnder] at h
  split at h
  · exact (Prod.mk.inj h).1.symm
  · split at h
    · exact (Prod.mk.inj h).1.symm
    · dsimp only at h
      split at h
      · exact (Prod.mk.inj h).1.symm
      · exact (Prod.mk.inj h).1.symm
      · cases (Prod.mk.inj h).2

/-- **The log tells all that a publish has done**, whatever goes wrong. -/
theorem publishUnder_follows {result : Except Failure Report}
    (target : tree.directory? w.directory = some dir) (hidden : HiddenWritable dir tree set)
    (run : w.publishUnder faults scratch set tree = (p, result)) : p.Follows dir tree := by
  cases result with
  | error e =>
    rw [publishUnder_eq_error run]
    rfl
  | ok report =>
    have hreach : ∀ place, tree.directory? w.directory = some place → place = dir :=
      fun place hplace => Option.some.inj (hplace.symm.trans target)
    have hsent := exists_replacements (p := ⟨tree, []⟩) faults
      (collected faults scratch set).nodup_keys hidden.isSendable hreach
    obtain ⟨reached, -, log, -, hsteps⟩ := hsent.exists_reached
    rw [(publishUnder_eq_ok target run).1]
    exact follows_deleteAll _ (follows_replaceAll _ rfl hidden.isSendable hreach)
      fun place hplace => hreach place (FileTree.directory?_of_onlyWaysOf hsteps.onlyWaysOf hplace)

end Publish
end ClusterSync
