/-
# What replacing a file does

All that replacing one file can do to a directory is a `Replacement`: five ways to act, each
with its log, the tree that it leads to, and its result (`exists_replacement`). One of them
puts the new bytes in place, and it is taken exactly when the file `goesOut`. In the others
the place of the file is as it was, and what can be left behind is under the hidden name alone
(`Replacement.get?_frame`, `Replacement.get?_file`, `Replacement.get?_hidden`).

The hidden place must be one that can be written. Where a link stood there, the bytes would
go where it leads. Replacing a file brings no directory and no link about
(`Replacement.onlyWaysOf`).
-/

import ClusterSync.Proofs.Files.ClusterNames
import ClusterSync.Proofs.Files.Walks
import ClusterSync.Publish.Replace

namespace ClusterSync
namespace Publish

open Files

variable {faults : Faults} {dir : Place} {file : String} {bytes : ByteArray} {tree : FileTree}

/-- Can a file be published into a tree: nothing goes wrong by itself, its hidden name is not
too long, and no directory stands in its place? -/
def goesOut (faults : Faults) (dir : Place) (tree : FileTree) (file : String) : Bool :=
  (faults.copy file).isNone && (faults.promote file).isNone &&
    (nameError? (ClusterFile.hidden file)).isNone &&
    decide (tree.get? (dir ++ [file]) ≠ some .directory)

theorem goesOut_iff :
    goesOut faults dir tree file = true ↔
      faults.copy file = none ∧ faults.promote file = none ∧
        nameError? (ClusterFile.hidden file) = none ∧
        tree.get? (dir ++ [file]) ≠ some .directory := by
  simp only [goesOut, Bool.and_eq_true, Option.isNone_iff_eq_none, decide_eq_true_iff, and_assoc]

/-- A file that can be published over a tree as far as names go: it is one of a cluster, an
entry may have its name, and its hidden place can be written. -/
structure IsSendable (dir : Place) (tree : FileTree) (file : String) : Prop where
  isName : ClusterFile.isName file = true
  entryName : IsEntryName file
  writable : tree.IsWritable (dir ++ [ClusterFile.hidden file])

theorem IsSendable.bare_hidden (h : IsSendable dir tree file) :
    IsBare (ClusterFile.hidden file) := ClusterFile.isBare_hidden h.entryName.noSlash

theorem IsSendable.hidden_ne (h : IsSendable dir tree file) :
    dir ++ [ClusterFile.hidden file] ≠ dir ++ [file] := by
  simpa using ClusterFile.hidden_ne_of_isName h.isName

theorem IsSendable.insert_hidden (h : IsSendable dir tree file) :
    IsSendable dir (tree.insert (dir ++ [ClusterFile.hidden file]) (.file bytes)) file where
  isName := h.isName
  entryName := h.entryName
  writable := h.writable.insert _ _

theorem IsSendable.of_absent (h : IsSendable dir tree file) {after : FileTree}
    (hnone : after.get? (dir ++ [ClusterFile.hidden file]) = none) :
    IsSendable dir after file where
  isName := h.isName
  entryName := h.entryName
  writable entry hentry := by simp [hnone] at hentry

theorem IsSendable.of_onlyWaysOf {after : FileTree} (h : IsSendable dir tree file)
    (hways : after.OnlyWaysOf tree) : IsSendable dir after file where
  isName := h.isName
  entryName := h.entryName
  writable := hways.isWritable h.writable

/-- All ways in which replacing a file can go. -/
inductive Replacement (faults : Faults) (dir : Place) (file : String) (bytes : ByteArray)
    (tree : FileTree) : List Action → FileTree → Except OsError Unit → Prop
  /-- The new file is in place. -/
  | replaced (h : goesOut faults dir tree file = true) :
    Replacement faults dir file bytes tree [.fill file bytes, .promote file]
      (((tree.insert (dir ++ [ClusterFile.hidden file]) (.file bytes)).erase
        (dir ++ [ClusterFile.hidden file])).insert (dir ++ [file]) (.file bytes)) (.ok ())
  /-- Nothing has been done. -/
  | untouched (e : OsError) (h : goesOut faults dir tree file = false)
    (hidden : faults.discard file = none → nameError? (ClusterFile.hidden file) = none →
      tree.get? (dir ++ [ClusterFile.hidden file]) = none) :
    Replacement faults dir file bytes tree [] tree (.error e)
  /-- What an earlier publish left behind has been removed. -/
  | tidied (e : OsError) (h : goesOut faults dir tree file = false)
    (allowed : nameError? (ClusterFile.hidden file) = none) :
    Replacement faults dir file bytes tree [.discard file]
      (tree.erase (dir ++ [ClusterFile.hidden file])) (.error e)
  /-- Some bytes have been written and removed. -/
  | undone (e : OsError) (part : ByteArray) (h : goesOut faults dir tree file = false)
    (allowed : nameError? (ClusterFile.hidden file) = none) :
    Replacement faults dir file bytes tree [.fill file part, .discard file]
      ((tree.insert (dir ++ [ClusterFile.hidden file]) (.file part)).erase
        (dir ++ [ClusterFile.hidden file])) (.error e)
  /-- Some bytes have been written and could not be removed. -/
  | abandoned (e : OsError) (part : ByteArray) (h : goesOut faults dir tree file = false)
    (allowed : nameError? (ClusterFile.hidden file) = none)
    (hidden : faults.discard file ≠ none) :
    Replacement faults dir file bytes tree [.fill file part]
      (tree.insert (dir ++ [ClusterFile.hidden file]) (.file part)) (.error e)

namespace Progress

variable {p : Progress} {fault : Option OsError}

theorem act_some (e : OsError) (a : Action) : p.act dir (some e) a = (p, .error e) := rfl

theorem act_none_of_ok {a : Action} (h : a.apply dir p.tree = .ok tree) :
    p.act dir none a = (⟨tree, p.log ++ [a]⟩, .ok ()) := by
  rw [act]
  simp only [h]

theorem act_none_of_error {a : Action} {e : OsError} (h : a.apply dir p.tree = .error e) :
    p.act dir none a = (p, .error e) := by
  rw [act]
  simp only [h]

/-- An action is done and logged, or not done and not logged. -/
theorem act_cases (p : Progress) (dir : Place) (fault : Option OsError) (a : Action) :
    (∃ tree, a.apply dir p.tree = .ok tree ∧
      p.act dir fault a = (⟨tree, p.log ++ [a]⟩, .ok ())) ∨
    ∃ e, p.act dir fault a = (p, .error e) := by
  cases fault with
  | some e => exact .inr ⟨e, rfl⟩
  | none =>
    cases h : a.apply dir p.tree with
    | ok tree => exact .inl ⟨tree, rfl, act_none_of_ok h⟩
    | error e => exact .inr ⟨e, act_none_of_error h⟩

/-- Bytes are written under the hidden name unless it is too long. -/
theorem act_fill (h : IsSendable dir p.tree file) (bytes : ByteArray) :
    p.act dir none (.fill file bytes) =
      match nameError? (ClusterFile.hidden file) with
      | some e => (p, .error e)
      | none => (⟨p.tree.insert (dir ++ [ClusterFile.hidden file]) (.file bytes),
          p.log ++ [.fill file bytes]⟩, .ok ()) := by
  have hw := FileTree.write_bare h.bare_hidden h.writable bytes
  cases hn : nameError? (ClusterFile.hidden file) with
  | some e =>
    rw [hn] at hw
    exact act_none_of_error hw
  | none =>
    rw [hn] at hw
    exact act_none_of_ok hw

/-- The hidden file takes its place unless a directory stands there. -/
theorem act_promote (hf : IsEntryName file) (hh : IsEntryName (ClusterFile.hidden file))
    (hget : p.tree.get? (dir ++ [ClusterFile.hidden file]) = some (.file bytes)) :
    p.act dir none (.promote file) =
      if p.tree.get? (dir ++ [file]) = some .directory then (p, .error .isDirectory)
      else (⟨(p.tree.erase (dir ++ [ClusterFile.hidden file])).insert (dir ++ [file])
          (.file bytes), p.log ++ [.promote file]⟩, .ok ()) := by
  have hr : (Action.promote file).apply dir p.tree = _ := FileTree.rename_entryName hh hf
  rw [hget] at hr
  split
  · next hd =>
    rw [hd] at hr
    exact act_none_of_error hr
  · next hd =>
    refine act_none_of_ok (hr.trans ?_)
    cases ht : p.tree.get? (dir ++ [file]) with
    | none => rfl
    | some entry =>
      cases entry with
      | directory => exact absurd ht hd
      | file old => rfl
      | link target => rfl

/-- Nothing is removed where nothing is. -/
theorem tidy_of_absent (h : IsSendable dir p.tree file)
    (habsent : nameError? (ClusterFile.hidden file) = none →
      p.tree.get? (dir ++ [ClusterFile.hidden file]) = none) :
    p.tidy dir fault file = p := by
  rw [tidy, FileTree.leadsSomewhere_bare h.bare_hidden h.writable]
  cases hn : nameError? (ClusterFile.hidden file) with
  | some e => rfl
  | none => rw [habsent hn]; rfl

/-- What stands under the hidden name is removed, if it can be. -/
theorem tidy_of_present (h : IsSendable dir p.tree file)
    (hn : nameError? (ClusterFile.hidden file) = none)
    (hget : p.tree.get? (dir ++ [ClusterFile.hidden file]) = some (.file bytes)) :
    p.tidy dir fault file =
      match fault with
      | some _ => p
      | none => ⟨p.tree.erase (dir ++ [ClusterFile.hidden file]), p.log ++ [.discard file]⟩ := by
  have hr : (Action.discard file).apply dir p.tree = _ :=
    FileTree.remove_entryName ⟨h.bare_hidden, hn⟩
  rw [hget] at hr
  rw [tidy, FileTree.leadsSomewhere_bare h.bare_hidden h.writable, hn, hget]
  cases fault with
  | some e => rfl
  | none =>
    simp only [Option.isNone_none, Option.isSome_some, Bool.and_self, if_true]
    rw [act_none_of_ok hr]

/-- Bytes that have been written for nothing are removed, if they can be. -/
theorem exists_replacement_of_filled (h : IsSendable dir p.tree file)
    (hn : nameError? (ClusterFile.hidden file) = none)
    (hg : goesOut faults dir p.tree file = false) (part bytes : ByteArray) (e : OsError) :
    ∃ actions tree, (Progress.mk (p.tree.insert (dir ++ [ClusterFile.hidden file]) (.file part))
        (p.log ++ [.fill file part])).tidy dir (faults.discard file) file =
          ⟨tree, p.log ++ actions⟩ ∧
      Replacement faults dir file bytes p.tree actions tree (.error e) := by
  rw [tidy_of_present h.insert_hidden hn ((Table.get?_insert ..).trans (if_pos rfl))]
  cases hd : faults.discard file with
  | some e' =>
    exact ⟨[.fill file part], _, rfl, .abandoned e part hg hn (by simp [hd])⟩
  | none =>
    refine ⟨[.fill file part, .discard file], _, ?_, .undone e part hg hn⟩
    rw [List.append_assoc]
    rfl

/-- Where nothing has been written, what an earlier publish left behind is removed, if it can
be. -/
theorem exists_replacement_of_unfilled (h : IsSendable dir p.tree file)
    (hg : goesOut faults dir p.tree file = false) (bytes : ByteArray) (e : OsError) :
    ∃ actions tree, p.tidy dir (faults.discard file) file = ⟨tree, p.log ++ actions⟩ ∧
      Replacement faults dir file bytes p.tree actions tree (.error e) := by
  by_cases habsent : nameError? (ClusterFile.hidden file) = none →
      p.tree.get? (dir ++ [ClusterFile.hidden file]) = none
  · refine ⟨[], p.tree, ?_, .untouched e hg fun _ => habsent⟩
    rw [tidy_of_absent h habsent, List.append_nil]
  · obtain ⟨hn, hpresent⟩ := Classical.not_imp.1 habsent
    obtain ⟨entry, hget⟩ := Option.ne_none_iff_exists'.1 hpresent
    cases entry with
    | directory => exact absurd hget h.writable.ne_directory
    | link target => exact absurd hget (h.writable.ne_link target)
    | file old =>
      rw [tidy_of_present h hn hget]
      cases hd : faults.discard file with
      | none => exact ⟨[.discard file], _, rfl, .tidied e hg hn⟩
      | some e' =>
        refine ⟨[], p.tree, by rw [List.append_nil], .untouched e hg fun hnone => ?_⟩
        simp [hd] at hnone

/-- Writing under the hidden name leaves nothing, or some bytes in vain, or all of them. -/
theorem fill_cases (h : IsSendable dir p.tree file) (faults : Faults) (bytes : ByteArray) :
    (∃ e, p.fill dir (faults.copy file) file bytes = (p, .error e) ∧
      goesOut faults dir p.tree file = false) ∨
    (∃ e part, p.fill dir (faults.copy file) file bytes =
        (⟨p.tree.insert (dir ++ [ClusterFile.hidden file]) (.file part),
          p.log ++ [.fill file part]⟩, .error e) ∧
      nameError? (ClusterFile.hidden file) = none ∧ goesOut faults dir p.tree file = false) ∨
    (p.fill dir (faults.copy file) file bytes =
        (⟨p.tree.insert (dir ++ [ClusterFile.hidden file]) (.file bytes),
          p.log ++ [.fill file bytes]⟩, .ok ()) ∧
      nameError? (ClusterFile.hidden file) = none ∧ faults.copy file = none) := by
  have hact := fun b => act_fill h b
  cases hn : nameError? (ClusterFile.hidden file) with
  | some e =>
    simp only [hn] at hact
    have hg : goesOut faults dir p.tree file = false := by simp [goesOut, hn]
    cases hc : faults.copy file with
    | none => exact .inl ⟨e, hact bytes, hg⟩
    | some torn =>
      obtain ⟨left, e'⟩ := torn
      cases left with
      | none => exact .inl ⟨e', rfl, hg⟩
      | some n => exact .inl ⟨e, by simp only [fill, hact], hg⟩
  | none =>
    simp only [hn] at hact
    cases hc : faults.copy file with
    | none => exact .inr (.inr ⟨hact bytes, rfl, rfl⟩)
    | some torn =>
      have hg : goesOut faults dir p.tree file = false := by simp [goesOut, hc]
      obtain ⟨left, e⟩ := torn
      cases left with
      | none => exact .inl ⟨e, rfl, hg⟩
      | some n =>
        exact .inr (.inl ⟨e, firstBytes bytes n, by simp only [fill, hact], rfl, hg⟩)

/-- **Replacing a file goes one of five ways.** -/
theorem exists_replacement (h : IsSendable dir p.tree file) (faults : Faults)
    (bytes : ByteArray) :
    ∃ actions tree result,
      p.replace dir faults file (.ok bytes) = (⟨tree, p.log ++ actions⟩, result) ∧
      Replacement faults dir file bytes p.tree actions tree result := by
  rcases fill_cases h faults bytes with ⟨e, hfill, hg⟩ | ⟨e, part, hfill, hn, hg⟩ | ⟨hfill, hn, hc⟩
  · obtain ⟨actions, tree, htidy, hrep⟩ := exists_replacement_of_unfilled h hg bytes e
    exact ⟨actions, tree, _, by simp only [replace, hfill, htidy], hrep⟩
  · obtain ⟨actions, tree, htidy, hrep⟩ := exists_replacement_of_filled h hn hg part bytes e
    exact ⟨actions, tree, _, by simp only [replace, hfill, htidy], hrep⟩
  · cases hp : faults.promote file with
    | some e =>
      have hg : goesOut faults dir p.tree file = false := by simp [goesOut, hp]
      obtain ⟨actions, tree, htidy, hrep⟩ := exists_replacement_of_filled h hn hg bytes bytes e
      exact ⟨actions, tree, _, by simp only [replace, hfill, hp, act_some, htidy], hrep⟩
    | none =>
      have hpromote := act_promote (p := ⟨p.tree.insert (dir ++ [ClusterFile.hidden file])
        (.file bytes), p.log ++ [.fill file bytes]⟩) h.entryName ⟨h.bare_hidden, hn⟩
        ((Table.get?_insert ..).trans (if_pos rfl))
      rw [Table.get?_insert, if_neg h.hidden_ne] at hpromote
      by_cases hdir : p.tree.get? (dir ++ [file]) = some .directory
      · have hg : goesOut faults dir p.tree file = false := by simp [goesOut, hdir]
        rw [if_pos hdir] at hpromote
        obtain ⟨actions, tree, htidy, hrep⟩ :=
          exists_replacement_of_filled h hn hg bytes bytes .isDirectory
        exact ⟨actions, tree, _, by simp only [replace, hfill, hp, hpromote, htidy], hrep⟩
      · rw [if_neg hdir] at hpromote
        refine ⟨_, _, _, ?_, .replaced (goesOut_iff.2 ⟨hc, hp, hn, hdir⟩)⟩
        have habsent : (((p.tree.insert (dir ++ [ClusterFile.hidden file]) (.file bytes)).erase
            (dir ++ [ClusterFile.hidden file])).insert (dir ++ [file]) (.file bytes)).get?
              (dir ++ [ClusterFile.hidden file]) = none := by
          rw [Table.get?_insert, if_neg h.hidden_ne.symm, Table.get?_erase, if_pos rfl]
        simp only [replace, hfill, hp, hpromote]
        rw [tidy_of_absent (h.of_absent habsent) fun _ => habsent, List.append_assoc]
        rfl

end Progress

namespace Replacement

variable {actions : List Action} {after : FileTree} {result : Except OsError Unit}

/-- Other places are as they were, also that of a hidden name which is too long. -/
theorem get?_frame (h : Replacement faults dir file bytes tree actions after result)
    {place : Place} (hfile : place ≠ dir ++ [file])
    (hhidden : nameError? (ClusterFile.hidden file) = none →
      place ≠ dir ++ [ClusterFile.hidden file]) :
    after.get? place = tree.get? place := by
  cases h with
  | replaced hg =>
    have hne := hhidden (goesOut_iff.1 hg).2.2.1
    rw [Table.get?_insert, if_neg hfile.symm, Table.get?_erase, if_neg hne, Table.get?_insert,
      if_neg hne.symm]
  | untouched e hg => rfl
  | tidied e hg hn => rw [Table.get?_erase, if_neg (hhidden hn)]
  | undone e part hg hn =>
    rw [Table.get?_erase, if_neg (hhidden hn), Table.get?_insert, if_neg (hhidden hn).symm]
  | abandoned e part hg hn => rw [Table.get?_insert, if_neg (hhidden hn).symm]

/-- Nothing happens around the directory. -/
theorem sameAround (h : Replacement faults dir file bytes tree actions after result) :
    FileTree.SameAround dir tree after :=
  fun _ hplace => h.get?_frame (hplace _) fun _ => hplace _

/-- No directory or link comes to stand anywhere. -/
theorem onlyWaysOf (h : Replacement faults dir file bytes tree actions after result) :
    after.OnlyWaysOf tree := by
  have hsame := FileTree.OnlyWaysOf.refl tree
  cases h with
  | replaced hg => exact ((hsame.insert _ _).erase _).insert _ _
  | untouched e hg => exact hsame
  | tidied e hg => exact hsame.erase _
  | undone e part hg => exact (hsame.insert _ _).erase _
  | abandoned e part hg => exact hsame.insert _ _

/-- The file is replaced in full, or is as it was. -/
theorem get?_file (h : Replacement faults dir file bytes tree actions after result)
    (hne : dir ++ [ClusterFile.hidden file] ≠ dir ++ [file]) :
    after.get? (dir ++ [file]) =
      if goesOut faults dir tree file then some (.file bytes) else tree.get? (dir ++ [file]) := by
  cases h with
  | replaced hg => rw [hg, Table.get?_insert, if_pos rfl, if_pos rfl]
  | untouched e hg => rw [hg]; rfl
  | tidied e hg => rw [hg, Table.get?_erase, if_neg hne.symm]; rfl
  | undone e part hg =>
    rw [hg, Table.get?_erase, if_neg hne.symm, Table.get?_insert, if_neg hne]
    rfl
  | abandoned e part hg => rw [hg, Table.get?_insert, if_neg hne]; rfl

/-- Nothing is left under the hidden name, unless it could not be removed. -/
theorem get?_hidden (h : Replacement faults dir file bytes tree actions after result)
    (hne : dir ++ [ClusterFile.hidden file] ≠ dir ++ [file])
    (hn : nameError? (ClusterFile.hidden file) = none)
    (hd : goesOut faults dir tree file = true ∨ faults.discard file = none) :
    after.get? (dir ++ [ClusterFile.hidden file]) = none := by
  cases h with
  | replaced hg => rw [Table.get?_insert, if_neg hne.symm, Table.get?_erase, if_pos rfl]
  | untouched e hg hidden =>
    rw [hg] at hd
    exact hidden (hd.resolve_left Bool.false_ne_true) hn
  | tidied e hg => rw [Table.get?_erase, if_pos rfl]
  | undone e part hg => rw [Table.get?_erase, if_pos rfl]
  | abandoned e part hg hn hidden =>
    rw [hg] at hd
    exact absurd (hd.resolve_left Bool.false_ne_true) hidden

/-- The result says whether the file went out. -/
theorem result_cases (h : Replacement faults dir file bytes tree actions after result) :
    (result = .ok () ∧ goesOut faults dir tree file = true) ∨
      ((∃ e, result = .error e) ∧ goesOut faults dir tree file = false) := by
  cases h with
  | replaced hg => exact .inl ⟨rfl, hg⟩
  | untouched e hg => exact .inr ⟨⟨e, rfl⟩, hg⟩
  | tidied e hg => exact .inr ⟨⟨e, rfl⟩, hg⟩
  | undone e part hg => exact .inr ⟨⟨e, rfl⟩, hg⟩
  | abandoned e part hg => exact .inr ⟨⟨e, rfl⟩, hg⟩

end Replacement
end Publish
end ClusterSync
