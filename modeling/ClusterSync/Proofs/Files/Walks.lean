/-
# Walks that lead to directories

A walk that leads to a directory comes through directories and links alone. So it leads to the same
directory in a tree that has the same directories and links, whatever becomes of the files
(`FileTree.directory?_of_onlyWaysOf`). Files that are written or deleted therefore never let a path
lead to another directory; they may cut off the one that it led to. If all entries have names that
an entry may have, so do the directories on the way (`FileTree.isEntryPlace_of_directory?`).

What is published into a directory changes the entries of the directory and nothing around it
(`FileTree.SameAround`). A path that comes to the directory from outside still leads there
(`FileTree.LeadsTo`), and so does any path to a directory that has no entries
(`FileTree.leadsTo_of_vacant`). One that goes through an entry of the directory and back need not:
the entry may be a link, and a file may take its place.
-/

import ClusterSync.Proofs.Files.Names

namespace ClusterSync
namespace FileTree

open Files

variable {tree after : FileTree} {follow : Bool} {links : Nat} {here place : Place}
  {rest : List String} {entry : Entry} {path : String} {dir : Place}

/-- Has a tree no directories and no links but those of another one? -/
def OnlyWaysOf (after tree : FileTree) : Prop :=
  ∀ place entry, after.get? place = some entry → entry.isFile = false →
    tree.get? place = some entry

namespace OnlyWaysOf

theorem refl (tree : FileTree) : tree.OnlyWaysOf tree := fun _ _ hentry _ => hentry

theorem trans {middle : FileTree} (h : after.OnlyWaysOf middle) (hmiddle : middle.OnlyWaysOf tree) :
    after.OnlyWaysOf tree :=
  fun place entry hentry hway => hmiddle place entry (h place entry hentry hway) hway

/-- A file that is written is no way. -/
theorem insert (h : after.OnlyWaysOf tree) (spot : Place) (bytes : ByteArray) :
    OnlyWaysOf (after.insert spot (.file bytes)) tree := by
  intro place entry hentry hway
  rw [Table.get?_insert] at hentry
  split at hentry
  · rw [← Option.some.inj hentry] at hway
    cases hway
  · exact h place entry hentry hway

theorem erase (h : after.OnlyWaysOf tree) (spot : Place) :
    OnlyWaysOf (after.erase spot) tree := by
  intro place entry hentry hway
  rw [Table.get?_erase] at hentry
  split at hentry
  · cases hentry
  · exact h place entry hentry hway

theorem isWritable (h : after.OnlyWaysOf tree) (hw : tree.IsWritable place) :
    after.IsWritable place := by
  intro entry hentry
  cases hway : entry.isFile with
  | true => rfl
  | false => exact hway.symm.trans (hw entry (h place entry hentry hway))

end OnlyWaysOf

theorem walk_of_onlyWaysOf (h : tree.OnlyWaysOf after)
    (hwalk : tree.walk follow links here rest = .ok ⟨place, some .directory⟩) :
    after.walk follow links here rest = .ok ⟨place, some .directory⟩ := by
  fun_induction tree.walk follow links here rest with
  | case1 links here =>
    rw [walk]
    exact hwalk
  | case2 links here name rest hstay ih =>
    rw [walk, if_pos hstay]
    exact ih hwalk
  | case3 links here rest hstay ih =>
    rw [walk, if_neg hstay, if_pos rfl]
    exact ih hwalk
  | case5 links here name rest hstay hup hname hdir ih =>
    rw [walk, if_neg hstay, if_neg hup, hname]
    simp only [h _ _ hdir rfl]
    exact ih hwalk
  | case8 here name rest hstay hup hname target hlink hend links ih =>
    rw [walk, if_neg hstay, if_neg hup, hname]
    simp only [h _ _ hlink rfl, hend]
    exact ih hwalk
  | case4 => cases hwalk
  | case6 => cases hwalk
  | case7 => cases hwalk
  | case9 => cases hwalk
  | case10 => cases hwalk
  | case11 => cases hwalk
  | case12 => cases hwalk

/-- Taking an entry away brings no directory and no link about. -/
theorem onlyWaysOf_of_remove (h : tree.remove here path = .ok after) : after.OnlyWaysOf tree := by
  rw [remove] at h
  cases hspot : tree.locate false here path with
  | error e => simp [hspot, bind, Except.bind] at h
  | ok spot =>
    simp only [hspot, bind, Except.bind, pure, Except.pure] at h
    split at h
    · cases h
    · exact Except.ok.inj h ▸ (OnlyWaysOf.refl tree).erase spot.place
    · cases h

/-- A path leads to a directory if the walk from the top ends at one. -/
theorem directory?_eq_some_iff : tree.directory? path = some dir ↔
    path.isEmpty = false ∧ path.toList.contains '\x00' = false ∧
      tree.walk true maxLinks [] (Files.names path) = .ok ⟨dir, some .directory⟩ := by
  rw [directory?, locate, ite_self]
  cases hempty : path.isEmpty with
  | true => simp
  | false =>
    cases hzero : path.toList.contains '\x00' with
    | true => simp
    | false =>
      simp only [Bool.false_eq_true, if_false, true_and]
      constructor
      · intro h
        split at h
        · next place hwalk => rw [hwalk, Option.some.inj h]
        · cases h
      · intro h
        rw [h]

/-- **A path leads to the same directory** where no directory and no link is missing. -/
theorem directory?_of_onlyWaysOf (h : tree.OnlyWaysOf after)
    (hdir : tree.directory? path = some dir) : after.directory? path = some dir := by
  obtain ⟨hempty, hzero, hwalk⟩ := directory?_eq_some_iff.1 hdir
  exact directory?_eq_some_iff.2 ⟨hempty, hzero, walk_of_onlyWaysOf h hwalk⟩

/-- Are all names on the way to a place such as an entry may have? -/
def IsEntryPlace (place : Place) : Prop := ∀ name ∈ place, IsEntryName name

theorem isEntryPlace_of_walk (names : tree.HasEntryNames) (hhere : IsEntryPlace here)
    (hwalk : tree.walk follow links here rest = .ok ⟨place, some .directory⟩) :
    IsEntryPlace place := by
  fun_induction tree.walk follow links here rest with
  | case1 links here =>
    obtain rfl : here = place := by simpa using hwalk
    exact hhere
  | case2 links here name rest hstay ih => exact ih hhere hwalk
  | case3 links here rest hstay ih =>
    exact ih (fun name hname => hhere name (List.dropLast_subset _ hname)) hwalk
  | case5 links here name rest hstay hup hname hdir ih => exact ih (names _ _ hdir) hwalk
  | case6 => cases hwalk
  | case8 here name rest hstay hup hname target hlink hend links ih =>
    refine ih ?_ hwalk
    split
    · simp [IsEntryPlace]
    · exact hhere
  | case9 => cases hwalk
  | case4 => cases hwalk
  | case7 => cases hwalk
  | case10 => cases hwalk
  | case11 => cases hwalk
  | case12 => cases hwalk

/-- So are those of a directory that a path leads to. -/
theorem isEntryPlace_of_directory? (names : tree.HasEntryNames)
    (hdir : tree.directory? path = some dir) : IsEntryPlace dir := by
  obtain ⟨-, -, hwalk⟩ := directory?_eq_some_iff.1 hdir
  exact isEntryPlace_of_walk names (by simp [IsEntryPlace]) hwalk

/-- Do two trees differ in nothing but the entries of a directory? -/
def SameAround (dir : Place) (tree after : FileTree) : Prop :=
  ∀ place, (∀ name, place ≠ dir ++ [name]) → after.get? place = tree.get? place

/-- Does a path lead to a directory, whatever entries the directory has? -/
def LeadsTo (tree : FileTree) (path : String) (dir : Place) : Prop :=
  ∀ after, SameAround dir tree after → after.directory? path = some dir

theorem LeadsTo.directory? (h : tree.LeadsTo path dir) : tree.directory? path = some dir :=
  h tree fun _ _ => rfl

theorem LeadsTo.of_sameAround (h : tree.LeadsTo path dir) (hsame : SameAround dir tree after) :
    after.LeadsTo path dir :=
  fun final hfinal => h final fun place hplace =>
    (hfinal place hplace).trans (hsame place hplace)

/-- A path to a directory without entries does not come through any. -/
theorem leadsTo_of_vacant (hdir : tree.directory? path = some dir)
    (vacant : ∀ name, tree.get? (dir ++ [name]) = none) : tree.LeadsTo path dir := by
  intro after hsame
  refine directory?_of_onlyWaysOf (fun place entry hentry _ => ?_) hdir
  refine (hsame place fun name heq => ?_).trans hentry
  rw [heq, vacant name] at hentry
  cases hentry

/-- The name of a directory at the top leads to it. -/
theorem leadsTo_entryName {name : String} (h : IsEntryName name)
    (hdir : tree.get? [name] = some .directory) : tree.LeadsTo name [name] := by
  intro after hsame
  have haround : after.get? [name] = tree.get? [name] := hsame [name] fun other => by simp
  exact directory?_entryName h (haround.trans hdir)

end FileTree
end ClusterSync
