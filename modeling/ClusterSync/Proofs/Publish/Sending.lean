/-
# What replacing and deleting files in turn does

Replacing a list of files is one `Replacement` after the other (`exists_replacements`). It does
for each file what replacing it alone does, since no two of them share a place (`Replaced`,
`Replacements.replaced`). Whether a file goes out can therefore be read off the tree that the
whole run starts from. Deleting a list of files takes away those that can be deleted and
nothing else (`Cleared`, `cleared_deleteAll`).

The path to the directory is looked up for each file. It leads to the same directory or to none,
since no directory and no link comes about. A file that it does not reach any more is one whose
operations fail (`Faults.within`), and what is told here of faults holds of these too. Only a path
through an entry of the directory can be cut off. One that leads there from outside reaches all
files (`HoldsWithin`).
-/

import ClusterSync.Proofs.Publish.Replacing
import ClusterSync.Publish.Writer

namespace ClusterSync
namespace Publish

open Files

variable {faults : Faults} {dir : Place} {directory : String} {before middle after : FileTree}

/-! ### Files out of reach -/

/-- Faults, and failures of what is done to files out of reach. -/
def Faults.within (faults : Faults) (reached : String → Bool) : Faults :=
  { faults with
    copy := fun file => if reached file then faults.copy file else some ⟨Option.none, .notFound⟩
    discard := fun file => if reached file then faults.discard file else some .notFound
    delete := fun file => if reached file then faults.delete file else some .notFound }

theorem Faults.within_of_forall {reached : String → Bool} (h : ∀ file, reached file = true) :
    faults.within reached = faults := by
  simp [Faults.within, h]

theorem Replacement.within {file : String} {bytes : ByteArray} {actions : List Action}
    {result : Except OsError Unit} {reached : String → Bool}
    (h : Replacement faults dir file bytes before actions after result)
    (hreached : reached file = true) :
    Replacement (faults.within reached) dir file bytes before actions after result := by
  have hgoes :
      goesOut (faults.within reached) dir before file = goesOut faults dir before file := by
    simp [goesOut, Faults.within, hreached]
  have hdiscard : (faults.within reached).discard file = faults.discard file := if_pos hreached
  cases h with
  | replaced hg => exact .replaced (hgoes.trans hg)
  | untouched e hg hidden =>
    exact .untouched e (hgoes.trans hg) fun hnone => hidden (hdiscard.symm.trans hnone)
  | tidied e hg allowed => exact .tidied e (hgoes.trans hg) allowed
  | undone e part hg allowed => exact .undone e part (hgoes.trans hg) allowed
  | abandoned e part hg allowed hidden =>
    exact .abandoned e part (hgoes.trans hg) allowed fun hnone => hidden (hdiscard.symm.trans hnone)

/-- Does something hold of a run on files, told with those that the path reaches at their turn?
All are reached if it comes to the directory from outside. -/
def HoldsWithin (tree : FileTree) (directory : String) (dir : Place) (files : List String)
    (P : (String → Bool) → Prop) : Prop :=
  ∃ reached : String → Bool, (tree.LeadsTo directory dir → ∀ file, reached file = true) ∧
    ∀ other, (∀ file ∈ files, other file = reached file) → P other

namespace HoldsWithin

variable {tree next : FileTree} {file : String} {files more : List String}
  {P Q : (String → Bool) → Prop}

theorem exists_reached (h : HoldsWithin tree directory dir files P) :
    ∃ reached : String → Bool, (tree.LeadsTo directory dir → ∀ file, reached file = true) ∧
      P reached := by
  obtain ⟨reached, hall, hP⟩ := h
  exact ⟨reached, hall, hP reached fun _ _ => rfl⟩

/-- One file is done first. -/
theorem cons (h : HoldsWithin next directory dir files P) (hfresh : file ∉ files)
    (hleads : tree.LeadsTo directory dir → next.LeadsTo directory dir)
    (hstep : ∀ reached : String → Bool,
      reached file = (tree.directory? directory).isSome → P reached → Q reached) :
    HoldsWithin tree directory dir (file :: files) Q := by
  obtain ⟨reached, hall, hP⟩ := h
  refine ⟨fun f => if f = file then (tree.directory? directory).isSome else reached f,
    fun htree f => ?_, fun other hother => hstep other ?_ (hP other fun f hf => ?_)⟩
  · dsimp only
    split
    · rw [htree.directory?]
      rfl
    · exact hall (hleads htree) f
  · exact (hother file (List.mem_cons_self ..)).trans (if_pos rfl)
  · refine (hother f (List.mem_cons_of_mem _ hf)).trans (if_neg ?_)
    rintro rfl
    exact hfresh hf

/-- Some files are done first. -/
theorem and (h : HoldsWithin tree directory dir files P)
    (hnext : HoldsWithin next directory dir more Q)
    (hleads : tree.LeadsTo directory dir → next.LeadsTo directory dir)
    (hfresh : ∀ file ∈ more, file ∉ files) :
    HoldsWithin tree directory dir (files ++ more) fun reached => P reached ∧ Q reached := by
  obtain ⟨reached, hall, hP⟩ := h
  obtain ⟨reached', hall', hQ⟩ := hnext
  refine ⟨fun f => if f ∈ files then reached f else reached' f, fun htree f => ?_,
    fun other hother => ⟨hP other fun f hf => ?_, hQ other fun f hf => ?_⟩⟩
  · dsimp only
    split
    · exact hall htree f
    · exact hall' (hleads htree) f
  · exact (hother f (List.mem_append_left _ hf)).trans (if_pos hf)
  · exact (hother f (List.mem_append_right _ hf)).trans (if_neg (hfresh f hf))

end HoldsWithin

/-- **Replacing a file in what a path leads to** is replacing it in the directory, or missing it. -/
theorem Progress.exists_replacementIn {p : Progress} {file : String}
    (h : IsSendable dir p.tree file)
    (hreach : ∀ place, p.tree.directory? directory = some place → place = dir) (faults : Faults)
    (bytes : ByteArray) :
    ∃ actions tree result,
      p.replaceIn directory faults file bytes = (⟨tree, p.log ++ actions⟩, result) ∧
      ∀ reached : String → Bool, reached file = (p.tree.directory? directory).isSome →
        Replacement (faults.within reached) dir file bytes p.tree actions tree result := by
  rw [replaceIn]
  cases hdir : p.tree.directory? directory with
  | none =>
    refine ⟨[], p.tree, _, by rw [List.append_nil], fun reached hreached => ?_⟩
    rw [Option.isSome_none] at hreached
    refine .untouched _ ?_ fun hnone => ?_
    · simp [goesOut, Faults.within, hreached]
    · simp [Faults.within, hreached] at hnone
  | some place =>
    obtain rfl := hreach place hdir
    obtain ⟨actions, tree, result, hreplace, hstep⟩ := exists_replacement h faults bytes
    exact ⟨actions, tree, result, hreplace, fun reached hreached => hstep.within hreached⟩

/-! ### Files in turn -/

/-- Is a place neither that of a file nor one that it can be hidden at? -/
def AvoidsFile (dir place : Place) (file : String) : Prop :=
  place ≠ dir ++ [file] ∧ (nameError? (ClusterFile.hidden file) = none →
    place ≠ dir ++ [ClusterFile.hidden file])

/-- The places of two cluster files do not meet. -/
theorem avoidsFile_of_ne {file other : String} (ho : ClusterFile.isName other = true)
    (hne : other ≠ file) : AvoidsFile dir (dir ++ [other]) file := by
  refine ⟨by simpa using hne, fun _ => ?_⟩
  simpa using (ClusterFile.hidden_ne_of_isName ho).symm

theorem avoidsFile_hidden_of_ne {file other : String} (hs : ClusterFile.isName file = true)
    (hne : other ≠ file) : AvoidsFile dir (dir ++ [ClusterFile.hidden other]) file := by
  refine ⟨?_, fun _ => by simpa using hne⟩
  simpa using ClusterFile.hidden_ne_of_isName hs

/-- What replacing files in turn leaves: which have been written, which have not, and what
stands where. -/
structure Replaced (faults : Faults) (dir : Place) (before : FileTree)
    (files : List (String × ByteArray)) (after : FileTree) (written failed : List String) :
    Prop where
  written_eq : written = (files.filter fun e => goesOut faults dir before e.1).map (·.1)
  failed_eq : failed = (files.filter fun e => !goesOut faults dir before e.1).map (·.1)
  get?_frame : ∀ place, (∀ e ∈ files, AvoidsFile dir place e.1) →
    after.get? place = before.get? place
  get?_file : ∀ e ∈ files, after.get? (dir ++ [e.1]) =
    if goesOut faults dir before e.1 then some (.file e.2) else before.get? (dir ++ [e.1])
  get?_hidden : ∀ e ∈ files, nameError? (ClusterFile.hidden e.1) = none →
    goesOut faults dir before e.1 = true ∨ faults.discard e.1 = none →
      after.get? (dir ++ [ClusterFile.hidden e.1]) = none

/-- A replacement leaves the places of another file alone. -/
theorem Replacement.get?_other {file other : String} {bytes : ByteArray} {actions : List Action}
    {result : Except OsError Unit}
    (h : Replacement faults dir file bytes before actions after result)
    (hs : ClusterFile.isName file = true) (ho : ClusterFile.isName other = true)
    (hne : other ≠ file) :
    after.get? (dir ++ [other]) = before.get? (dir ++ [other]) ∧
      after.get? (dir ++ [ClusterFile.hidden other]) =
        before.get? (dir ++ [ClusterFile.hidden other]) := by
  have hplace : AvoidsFile dir (dir ++ [other]) file := avoidsFile_of_ne ho hne
  have hhidden : AvoidsFile dir (dir ++ [ClusterFile.hidden other]) file :=
    avoidsFile_hidden_of_ne hs hne
  exact ⟨h.get?_frame hplace.1 hplace.2, h.get?_frame hhidden.1 hhidden.2⟩

theorem Replaced.cons {file : String} {bytes : ByteArray} {rest : List (String × ByteArray)}
    {actions : List Action} {result : Except OsError Unit} {written failed : List String}
    (hstep : Replacement faults dir file bytes before actions middle result)
    (hrest : Replaced faults dir middle rest after written failed)
    (hs : ClusterFile.isName file = true)
    (hfresh : ∀ e ∈ rest, ClusterFile.isName e.1 = true ∧ e.1 ≠ file) :
    Replaced faults dir before ((file, bytes) :: rest) after
      (if goesOut faults dir before file then file :: written else written)
      (if goesOut faults dir before file then failed else file :: failed) := by
  have hne : dir ++ [ClusterFile.hidden file] ≠ dir ++ [file] := by
    simpa using ClusterFile.hidden_ne_of_isName hs
  have hother : ∀ e ∈ rest, middle.get? (dir ++ [e.1]) = before.get? (dir ++ [e.1]) :=
    fun e he => (hstep.get?_other hs (hfresh e he).1 (hfresh e he).2).1
  have hgoes : ∀ e ∈ rest, goesOut faults dir middle e.1 = goesOut faults dir before e.1 :=
    fun e he => by rw [goesOut, hother e he]; rfl
  -- The later steps leave the places of the first file alone.
  have hkept : after.get? (dir ++ [file]) = middle.get? (dir ++ [file]) ∧
      after.get? (dir ++ [ClusterFile.hidden file]) =
        middle.get? (dir ++ [ClusterFile.hidden file]) :=
    ⟨hrest.get?_frame _ fun e he => avoidsFile_of_ne hs (hfresh e he).2.symm,
      hrest.get?_frame _ fun e he =>
        avoidsFile_hidden_of_ne (hfresh e he).1 (hfresh e he).2.symm⟩
  refine ⟨?_, ?_, ?_, ?_, ?_⟩
  · rw [hrest.written_eq, List.filter_congr hgoes, List.filter_cons]
    cases goesOut faults dir before file <;> rfl
  · rw [hrest.failed_eq, List.filter_congr fun e he => congrArg (!·) (hgoes e he),
      List.filter_cons]
    cases goesOut faults dir before file <;> rfl
  · intro place hplace
    obtain ⟨hfile, hhidden⟩ := hplace _ (List.mem_cons_self ..)
    rw [hrest.get?_frame place fun e he => hplace e (List.mem_cons_of_mem _ he),
      hstep.get?_frame hfile hhidden]
  · intro e he
    rcases List.mem_cons.1 he with rfl | he
    · rw [hkept.1, hstep.get?_file hne]
    · rw [hrest.get?_file e he, hgoes e he, hother e he]
  · intro e he hn hd
    rcases List.mem_cons.1 he with rfl | he
    · rw [hkept.2, hstep.get?_hidden hne hn hd]
    · exact hrest.get?_hidden e he hn (hgoes e he ▸ hd)

/-- Replacements in turn, with all that they have done. -/
inductive Replacements (faults : Faults) (dir : Place) :
    FileTree → List (String × ByteArray) → List Action → FileTree → List String → List String → Prop
  | nil (tree : FileTree) : Replacements faults dir tree [] [] tree [] []
  | cons {before middle after : FileTree} {file : String} {bytes : ByteArray}
    {rest : List (String × ByteArray)} {actions log : List Action} {result : Except OsError Unit}
    {written failed : List String}
    (step : Replacement faults dir file bytes before actions middle result)
    (next : Replacements faults dir middle rest log after written failed) :
    Replacements faults dir before ((file, bytes) :: rest) (actions ++ log) after
      (if goesOut faults dir before file then file :: written else written)
      (if goesOut faults dir before file then failed else file :: failed)

/-- Replacing files in turn is one replacement after the other. -/
theorem exists_replacements (faults : Faults) {p : Progress} {files : List (String × ByteArray)}
    (hnd : (files.map (·.1)).Nodup) (hs : ∀ e ∈ files, IsSendable dir p.tree e.1)
    (hreach : ∀ place, p.tree.directory? directory = some place → place = dir) :
    HoldsWithin p.tree directory dir (files.map (·.1)) fun reached =>
      ∃ log, (replaceAll faults directory p files).1.log = p.log ++ log ∧
        Replacements (faults.within reached) dir p.tree files log
          (replaceAll faults directory p files).1.tree (replaceAll faults directory p files).2.1
          ((replaceAll faults directory p files).2.2.map (·.1)) := by
  induction files generalizing p with
  | nil =>
    exact ⟨fun _ => true, fun _ _ => rfl, fun _ _ => ⟨[], (List.append_nil _).symm, .nil p.tree⟩⟩
  | cons e rest ih =>
    obtain ⟨file, bytes⟩ := e
    obtain ⟨hfresh, hnd⟩ := List.nodup_cons.1 hnd
    obtain ⟨actions, tree, result, hreplace, hstep⟩ :=
      Progress.exists_replacementIn (hs _ (List.mem_cons_self ..)) hreach faults bytes
    -- What follows does not depend on which other files are reached.
    have hfirst := hstep (fun _ => (p.tree.directory? directory).isSome) rfl
    have hrest := ih (p := ⟨tree, p.log ++ actions⟩) hnd
      (fun e he => (hs e (List.mem_cons_of_mem _ he)).of_onlyWaysOf hfirst.onlyWaysOf)
      fun place hplace => hreach place (FileTree.directory?_of_onlyWaysOf hfirst.onlyWaysOf hplace)
    refine hrest.cons hfresh (fun hleads => hleads.of_sameAround hfirst.sameAround) ?_
    rintro reached hreached ⟨log, hlog, hnext⟩
    have hstep := hstep reached hreached
    have hcons := hnext.cons hstep
    rw [replaceAll, hreplace]
    refine ⟨actions ++ log, ?_, ?_⟩
    · rw [← List.append_assoc]
      cases result <;> exact hlog
    · rcases hstep.result_cases with ⟨rfl, hg⟩ | ⟨⟨e, rfl⟩, hg⟩
      · simpa only [hg, if_true] using hcons
      · simpa only [hg, Bool.false_eq_true, if_false, List.map_cons] using hcons

theorem Replacements.onlyWaysOf {files : List (String × ByteArray)} {log : List Action}
    {written failed : List String}
    (h : Replacements faults dir before files log after written failed) :
    after.OnlyWaysOf before := by
  induction h with
  | nil tree => exact .refl tree
  | cons step next ih => exact ih.trans step.onlyWaysOf

theorem Replacements.sameAround {files : List (String × ByteArray)} {log : List Action}
    {written failed : List String}
    (h : Replacements faults dir before files log after written failed) :
    FileTree.SameAround dir before after := by
  induction h with
  | nil tree => exact fun _ _ => rfl
  | cons step next ih =>
    exact fun place hplace => (ih place hplace).trans (step.sameAround place hplace)

/-- **Replacing files in turn does to each what replacing it alone does.** -/
theorem Replacements.replaced {files : List (String × ByteArray)} {log : List Action}
    {written failed : List String}
    (h : Replacements faults dir before files log after written failed)
    (hnd : (files.map (·.1)).Nodup) (hs : ∀ e ∈ files, ClusterFile.isName e.1 = true) :
    Replaced faults dir before files after written failed := by
  induction h with
  | nil tree => exact ⟨rfl, rfl, fun _ _ => rfl, by simp, by simp⟩
  | cons step next ih =>
    obtain ⟨hfresh, hnd⟩ := List.nodup_cons.1 hnd
    refine (ih hnd fun e he => hs e (List.mem_cons_of_mem _ he)).cons step
      (hs _ (List.mem_cons_self ..)) fun e he => ⟨hs e (List.mem_cons_of_mem _ he), ?_⟩
    exact fun heq => hfresh (List.mem_map.2 ⟨e, he, heq⟩)

/-- What deleting files in turn leaves. -/
structure Cleared (faults : Faults) (dir : Place) (before : FileTree) (files : List String)
    (after : FileTree) (deleted failed : List String) : Prop where
  deleted_eq : deleted = files.filter fun file => (faults.delete file).isNone
  failed_eq : failed = files.filter fun file => (faults.delete file).isSome
  get?_eq : ∀ place, after.get? place =
    if ∃ file ∈ deleted, place = dir ++ [file] then none else before.get? place

/-- A file is deleted and that is logged, or nothing is done. -/
theorem Progress.deleteIn_cases (p : Progress) (directory : String) (fault : Option OsError)
    (file : String) :
    (∃ dir tree, p.tree.directory? directory = some dir ∧
      (Action.delete file).apply dir p.tree = .ok tree ∧
      p.deleteIn directory fault file = (⟨tree, p.log ++ [.delete file]⟩, .ok ())) ∨
    ∃ e, p.deleteIn directory fault file = (p, .error e) := by
  rw [deleteIn]
  cases p.tree.directory? directory with
  | none => exact .inr ⟨_, rfl⟩
  | some dir =>
    rcases p.act_cases dir fault (.delete file) with ⟨tree, happly, hact⟩ | ⟨e, hact⟩
    · exact .inl ⟨dir, tree, rfl, happly, hact⟩
    · exact .inr ⟨e, hact⟩

/-- A plain file is deleted unless that fails, or the path does not lead to it any more. -/
theorem Progress.deleteIn_plain {p : Progress} {file : String} {bytes : ByteArray}
    (hname : IsEntryName file) (hplain : p.tree.get? (dir ++ [file]) = some (.file bytes))
    (hreach : ∀ place, p.tree.directory? directory = some place → place = dir) (faults : Faults) :
    (p.deleteIn directory (faults.delete file) file =
        (⟨p.tree.erase (dir ++ [file]), p.log ++ [.delete file]⟩, .ok ()) ∧
      ∀ reached : String → Bool, reached file = (p.tree.directory? directory).isSome →
        (faults.within reached).delete file = none) ∨
    ∃ e, p.deleteIn directory (faults.delete file) file = (p, .error e) ∧
      ∀ reached : String → Bool, reached file = (p.tree.directory? directory).isSome →
        (faults.within reached).delete file ≠ none := by
  rw [deleteIn]
  cases hdir : p.tree.directory? directory with
  | none => exact .inr ⟨_, rfl, fun reached hreached => by simp [Faults.within, hreached]⟩
  | some place =>
    obtain rfl := hreach place hdir
    cases hfault : faults.delete file with
    | some e =>
      exact .inr ⟨e, rfl, fun reached hreached => by simp [Faults.within, hreached, hfault]⟩
    | none =>
      have hremove : (Action.delete file).apply place p.tree = _ :=
        FileTree.remove_entryName hname
      rw [hplain] at hremove
      exact .inl ⟨act_none_of_ok hremove, fun reached hreached => by
        simp [Faults.within, hreached, hfault]⟩

namespace Cleared

variable {file : String} {rest deleted failed : List String}

theorem cons_kept (h : Cleared faults dir before rest after deleted failed)
    (hfault : faults.delete file ≠ none) :
    Cleared faults dir before (file :: rest) after deleted (file :: failed) where
  deleted_eq := by rw [h.deleted_eq, List.filter_cons_of_neg (by simpa using hfault)]
  failed_eq := by
    have hsome : (faults.delete file).isSome = true := Option.isSome_iff_ne_none.2 hfault
    rw [h.failed_eq, List.filter_cons_of_pos (by simpa using hsome)]
  get?_eq := h.get?_eq

theorem cons_deleted
    (h : Cleared faults dir (before.erase (dir ++ [file])) rest after deleted failed)
    (hfault : faults.delete file = none) :
    Cleared faults dir before (file :: rest) after (file :: deleted) failed where
  deleted_eq := by rw [h.deleted_eq, List.filter_cons_of_pos (by simp [hfault])]
  failed_eq := by rw [h.failed_eq, List.filter_cons_of_neg (by simp [hfault])]
  get?_eq place := by
    rw [h.get?_eq place, Table.get?_erase]
    simp only [List.mem_cons, exists_eq_or_imp]
    by_cases hplace : place = dir ++ [file]
    · rw [if_pos hplace, ite_self]
      exact (if_pos (.inl hplace)).symm
    · simp only [hplace, if_false, false_or]

end Cleared

/-- **Deleting files in turn** takes away those that can be deleted and are reached. -/
theorem cleared_deleteAll (faults : Faults) {p : Progress} {files : List String}
    (hnd : files.Nodup) (hname : ∀ file ∈ files, IsEntryName file)
    (hplain : ∀ file ∈ files, ∃ bytes, p.tree.get? (dir ++ [file]) = some (.file bytes))
    (hreach : ∀ place, p.tree.directory? directory = some place → place = dir) :
    HoldsWithin p.tree directory dir files fun reached =>
      Cleared (faults.within reached) dir p.tree files (deleteAll faults directory p files).1.tree
        (deleteAll faults directory p files).2.1
        ((deleteAll faults directory p files).2.2.map (·.1)) := by
  induction files generalizing p with
  | nil => exact ⟨fun _ => true, fun _ _ => rfl, fun _ _ => ⟨rfl, rfl, by simp [deleteAll]⟩⟩
  | cons file rest ih =>
    obtain ⟨hfresh, hnd⟩ := List.nodup_cons.1 hnd
    obtain ⟨bytes, hget⟩ := hplain file (List.mem_cons_self ..)
    have hrestName := fun f hf => hname f (List.mem_cons_of_mem _ hf)
    have hrestPlain := fun f hf => hplain f (List.mem_cons_of_mem _ hf)
    rcases Progress.deleteIn_plain (hname file (List.mem_cons_self ..)) hget hreach faults with
      ⟨hdelete, hfault⟩ | ⟨e, hdelete, hfault⟩
    · have hways := (FileTree.OnlyWaysOf.refl p.tree).erase (dir ++ [file])
      have hkept : ∀ f ∈ rest, ∃ bytes,
          (p.tree.erase (dir ++ [file])).get? (dir ++ [f]) = some (.file bytes) := by
        intro f hf
        have hne : dir ++ [f] ≠ dir ++ [file] := by
          simpa using fun heq : f = file => hfresh (heq ▸ hf)
        rw [Table.get?_erase, if_neg hne]
        exact hrestPlain f hf
      have hrest := ih (p := ⟨p.tree.erase (dir ++ [file]), p.log ++ [.delete file]⟩) hnd hrestName
        hkept fun place hplace => hreach place (FileTree.directory?_of_onlyWaysOf hways hplace)
      refine hrest.cons hfresh (fun hleads => hleads.of_sameAround fun place hplace => ?_)
        fun reached hreached hcleared => ?_
      · rw [Table.get?_erase, if_neg (hplace file)]
      · simp only [deleteAll, hdelete]
        exact hcleared.cons_deleted (hfault reached hreached)
    · refine (ih hnd hrestName hrestPlain hreach).cons hfresh id fun reached hreached hcleared => ?_
      simp only [deleteAll, hdelete, List.map_cons]
      exact hcleared.cons_kept (hfault reached hreached)

end Publish
end ClusterSync
