/-
# Copying a file all or nothing

A file is copied under its hidden name, and from there it takes its place in one go. If the hidden
name leads to a place that can be written (`Hides`) there are two outcomes: the file has taken its
place (`replace_of_hasRoom`), or nothing has come of it (`exists_replace_eq_error`). Both leave
nothing at the hidden name, also not what stood there before, and change nothing else. Files may
be named by any path: the hidden one ends at another place than the one it hides.

The bytes are those of the source, but for one case. The source may be a link that leads to the
hidden file itself, which has been emptied to be written by the time it is read. So an empty file
takes the place (`atomicCopy_empties_linkedBack`).
-/

import ClusterSync.Proofs.Files.ClusterNames
import ClusterSync.Proofs.Files.PathEnds
import ClusterSync.Publish.Replace

namespace ClusterSync
namespace FileTree

open Files

variable {tree after : FileTree} {dir place spot : Place} {path : String}

/-- Does nothing stand where a path ends? -/
def IsAbsent (tree : FileTree) (dir : Place) (path : String) : Prop :=
  ∀ place entry, tree.locate false dir path ≠ .ok ⟨place, some entry⟩

/-- Does nothing stand where a path ends, or a file? -/
def HoldsAtMostFile (tree : FileTree) (dir : Place) (path : String) : Prop :=
  ∀ place entry, tree.locate false dir path = .ok ⟨place, some entry⟩ → entry.isFile = true

theorem isAbsent_of_error {e : OsError} (h : tree.locate false dir path = .error e) :
    tree.IsAbsent dir path := by
  simp [IsAbsent, h]

theorem holdsAtMostFile_entryName {name : String} (h : IsEntryName name)
    (hw : tree.IsWritable (dir ++ [name])) : tree.HoldsAtMostFile dir name := by
  intro place entry hlocate
  rw [locate_entryName h] at hlocate
  obtain ⟨rfl, hget⟩ := Spot.mk.inj (Except.ok.inj hlocate)
  exact hw entry hget

theorem EndsAt.isAbsent (h : tree.EndsAt dir path spot) (hnone : tree.get? spot = none) :
    tree.IsAbsent dir path := by
  rw [EndsAt, hnone] at h
  simp [IsAbsent, h]

/-- What stands nowhere leads nowhere. -/
theorem IsAbsent.leadsSomewhere (h : tree.IsAbsent dir path) :
    tree.leadsSomewhere dir path = false := by
  have hfollow : tree.locate true dir path = tree.locate false dir path :=
    locate_follow fun place target => h place (.link target)
  rw [FileTree.leadsSomewhere, hfollow]
  cases hlocate : tree.locate false dir path with
  | error e => rfl
  | ok spot =>
    obtain ⟨place, entry⟩ := spot
    cases entry with
    | none => rfl
    | some entry => exact absurd hlocate (h place entry)

/-- A file that comes to stand elsewhere does not bring an entry where a path ends. -/
theorem isAbsent_of_differsAt (h : DiffersAt place tree after) (hends : tree.EndsAt dir path spot)
    (hnone : tree.get? spot = none) (hne : place ≠ spot) : after.IsAbsent dir path := by
  have halike := locate_differsAt h dir path
  rw [EndsAt, hnone] at hends
  generalize hbefore : tree.locate false dir path = before at halike
  generalize hlocate : after.locate false dir path = result at halike
  rw [hends] at hbefore
  cases halike with
  | same => simp [IsAbsent, hlocate, ← hbefore]
  | there => exact absurd (Spot.mk.inj (Except.ok.inj hbefore)).1.symm hne
  | failed => cases hbefore
  | cut _ e => exact isAbsent_of_error hlocate

end FileTree

namespace Publish

open Files

variable {faults : Faults} {dir spot place : Place} {file : String} {tree : FileTree}
  {p : Progress} {bytes : ByteArray}

/-- Does the hidden name of a file lead to a place that can be written? -/
structure Hides (tree : FileTree) (dir : Place) (file : String) (spot : Place) : Prop where
  ends : tree.EndsAt dir (ClusterFile.hidden file) spot
  writable : tree.IsWritable spot

/-- Can a file be moved to a place where its path ends? -/
structure HasRoom (tree : FileTree) (dir : Place) (file : String) (place : Place) : Prop where
  ends : tree.EndsAt dir file place
  noDirectory : tree.get? place ≠ some .directory

theorem hasRoom_iff : HasRoom tree dir file place ↔
    ∃ entry, entry ≠ some .directory ∧ tree.locate false dir file = .ok ⟨place, entry⟩ := by
  constructor
  · exact fun h => ⟨_, h.noDirectory, h.ends⟩
  · rintro ⟨entry, hne, hlocate⟩
    have hends := FileTree.endsAt_of_locate hlocate hne
    have hentry := (Spot.mk.inj (Except.ok.inj (hends.symm.trans hlocate))).2
    exact ⟨hends, hentry ▸ hne⟩

namespace Hides

theorem differsAt_insert (h : Hides tree dir file spot) (bytes : ByteArray) :
    FileTree.DiffersAt spot tree (tree.insert spot (.file bytes)) where
  elsewhere p hp := by rw [Table.get?_insert, if_neg hp.symm]
  before := h.writable.ne_directory
  behind := h.writable.insert spot bytes

theorem differsAt_erase (h : Hides tree dir file spot) :
    FileTree.DiffersAt spot tree (tree.erase spot) where
  elsewhere p hp := by rw [Table.get?_erase, if_neg hp]
  before := h.writable.ne_directory
  behind := h.writable.erase spot

theorem insert (h : Hides tree dir file spot) (bytes : ByteArray) :
    Hides (tree.insert spot (.file bytes)) dir file spot where
  ends := h.ends.of_differsAt (h.differsAt_insert bytes) h.writable.ne_link
  writable := h.writable.insert spot bytes

theorem erase (h : Hides tree dir file spot) : Hides (tree.erase spot) dir file spot where
  ends := h.ends.of_differsAt h.differsAt_erase h.writable.ne_link
  writable := h.writable.erase spot

/-- The hidden file stands at another place than the file. -/
theorem ne_of_endsAt (h : Hides tree dir file spot) (hplace : tree.EndsAt dir file place) :
    place ≠ spot := by
  rintro rfl
  have hhidden := h.ends.getLast?_eq h.writable.ne_directory
  have hfile := hplace.getLast?_eq h.writable.ne_directory
  exact ClusterFile.getLast?_names_hidden_ne file (hhidden.symm.trans hfile)

/-- While the hidden file is there the file can be moved to the same place as without it. -/
theorem hasRoom_insert (h : Hides tree dir file spot) (bytes : ByteArray) :
    HasRoom (tree.insert spot (.file bytes)) dir file place ↔ HasRoom tree dir file place := by
  have halike := FileTree.locate_differsAt (h.differsAt_insert bytes) dir file
  rw [hasRoom_iff, hasRoom_iff]
  generalize hbefore : tree.locate false dir file = before at halike
  generalize FileTree.locate (tree.insert spot (.file bytes)) false dir file = after at halike
  cases halike with
  | same => rfl
  | there => exact absurd rfl (h.ne_of_endsAt hbefore)
  | failed e e' => simp
  | cut _ e target hlink => exact absurd hlink (h.writable.ne_link target)

/-- The hidden file takes its place, and nothing is left at the hidden one. -/
theorem isAbsent_of_hasRoom (h : Hides tree dir file spot) (hplace : HasRoom tree dir file place)
    (bytes : ByteArray) :
    FileTree.IsAbsent ((tree.erase spot).insert place (.file bytes)) dir
      (ClusterFile.hidden file) := by
  have hne : place ≠ spot := h.ne_of_endsAt hplace.ends
  have hgone : (tree.erase spot).get? spot = none := (Table.get?_erase ..).trans (if_pos rfl)
  have hdiffers : FileTree.DiffersAt place (tree.erase spot)
      ((tree.erase spot).insert place (.file bytes)) :=
    { elsewhere := fun p hp => by rw [Table.get?_insert, if_neg hp.symm]
      before := by
        rw [Table.get?_erase, if_neg hne]
        exact hplace.noDirectory
      behind := fun entry hentry => by
        rw [Table.get?_insert, if_pos rfl] at hentry
        exact Option.some.inj hentry ▸ rfl }
  exact FileTree.isAbsent_of_differsAt hdiffers h.erase.ends hgone hne

end Hides

/-- Where no entry or a file stands under the hidden name, a place there can be written. -/
theorem exists_hides {found : Spot} (hhidden : tree.HoldsAtMostFile dir (ClusterFile.hidden file))
    (hlocate : tree.locate false dir (ClusterFile.hidden file) = .ok found) :
    ∃ spot, Hides tree dir file spot := by
  obtain ⟨spot, entry⟩ := found
  have hne : entry ≠ some .directory := by
    rintro rfl
    exact absurd (hhidden spot .directory hlocate) (by decide)
  have hends := FileTree.endsAt_of_locate hlocate hne
  have hentry : tree.get? spot = entry :=
    (Spot.mk.inj (Except.ok.inj (hends.symm.trans hlocate))).2
  exact ⟨spot, hends, fun other hother => hhidden spot other (hother ▸ hentry ▸ hlocate)⟩

namespace Progress

/-! ### Outcomes of a replacement -/

theorem tidy_of_isAbsent {fault : Option OsError}
    (h : p.tree.IsAbsent dir (ClusterFile.hidden file)) : p.tidy dir fault file = p := by
  rw [tidy, h.leadsSomewhere]
  rfl

/-- What is left under the hidden name is removed. -/
theorem tree_tidy (h : Hides p.tree dir file spot) :
    (p.tidy dir none file).tree = p.tree.erase spot := by
  cases hget : p.tree.get? spot with
  | none => rw [tidy_of_isAbsent (h.ends.isAbsent hget), Table.erase_of_get?_eq_none hget]
  | some entry =>
    cases entry with
    | directory => exact absurd hget h.writable.ne_directory
    | link target => exact absurd hget (h.writable.ne_link target)
    | file bytes =>
      have hr : (Action.discard file).apply dir p.tree = .ok (p.tree.erase spot) :=
        FileTree.remove_of_endsAt h.ends hget
      rw [tidy, FileTree.leadsSomewhere_of_endsAt h.ends h.writable, hget, act]
      simp only [Option.isSome_some, if_true, hr]

/-- The progress of a replacement whose bytes have been written under the hidden name. -/
def filled (p : Progress) (spot : Place) (file : String) (bytes : ByteArray) : Progress :=
  ⟨p.tree.insert spot (.file bytes), p.log ++ [.fill file bytes]⟩

theorem act_fill_of_hides (h : Hides p.tree dir file spot) (bytes : ByteArray) :
    p.act dir none (.fill file bytes) = (p.filled spot file bytes, .ok ()) := by
  have hw : (Action.fill file bytes).apply dir p.tree = _ :=
    FileTree.write_of_endsAt h.ends h.writable bytes
  rw [act]
  simp only [hw]
  rfl

/-- Bytes that have been written in vain are removed, and so is what stood there before them. -/
theorem tree_tidy_filled (h : Hides p.tree dir file spot) (bytes : ByteArray) :
    ((p.filled spot file bytes).tidy dir none file).tree = p.tree.erase spot :=
  (tree_tidy (h.insert bytes)).trans (Table.erase_insert_self ..)

/-- A write that fails leaves nothing, or some of the bytes. -/
theorem fill_of_torn (h : Hides p.tree dir file spot) (torn : Torn) (bytes : ByteArray) :
    ∃ e, p.fill dir (some torn) file bytes = (p, .error e) ∨
      ∃ part, p.fill dir (some torn) file bytes = (p.filled spot file part, .error e) := by
  obtain ⟨left, e⟩ := torn
  cases left with
  | none => exact ⟨e, .inl rfl⟩
  | some n =>
    refine ⟨e, .inr ⟨firstBytes bytes n, ?_⟩⟩
    rw [fill]
    simp only [act_fill_of_hides h]

/-- **A replacement that goes through.** -/
theorem replace_of_hasRoom (h : Hides p.tree dir file spot) (hcopy : faults.copy file = none)
    (hpromote : faults.promote file = none) (hplace : HasRoom p.tree dir file place)
    (bytes : ByteArray) :
    ∃ log, p.replace dir faults file (.ok bytes) =
      (⟨(p.tree.erase spot).insert place (.file bytes), log⟩, .ok ()) := by
  have hfile : (p.filled spot file bytes).tree.get? spot = some (.file bytes) :=
    (Table.get?_insert ..).trans (if_pos rfl)
  have hroom := (h.hasRoom_insert bytes).2 hplace
  have hrename : (Action.promote file).apply dir (p.filled spot file bytes).tree =
      .ok ((p.tree.erase spot).insert place (.file bytes)) := by
    refine (FileTree.rename_of_endsAt (h.insert bytes).ends hfile hroom.ends
      hroom.noDirectory).trans ?_
    exact congrArg (fun t : FileTree => Except.ok (t.insert place (.file bytes)))
      (Table.erase_insert_self ..)
  refine ⟨(p.filled spot file bytes).log ++ [.promote file], ?_⟩
  simp only [replace, hcopy, hpromote, fill, act_fill_of_hides h]
  rw [act]
  simp only [hrename]
  rw [tidy_of_isAbsent (h.isAbsent_of_hasRoom hplace bytes)]

/-- **A replacement that comes to nothing.** -/
theorem exists_replace_eq_error (h : Hides p.tree dir file spot)
    (hdiscard : faults.discard file = none) {bytes : Except OsError ByteArray}
    (hnot : ¬ ((∃ b, bytes = .ok b) ∧ faults.copy file = none ∧ faults.promote file = none ∧
      ∃ place, HasRoom p.tree dir file place)) :
    ∃ e log, p.replace dir faults file bytes = (⟨p.tree.erase spot, log⟩, .error e) := by
  -- Whatever has failed, what is left under the hidden name is removed in the end.
  have hend : ∀ (q : Progress) (e : OsError), (q.tidy dir none file).tree = p.tree.erase spot →
      p.replace dir faults file bytes = (q.tidy dir none file, .error e) →
      ∃ e log, p.replace dir faults file bytes = (⟨p.tree.erase spot, log⟩, .error e) := by
    intro q e htree hreplace
    exact ⟨e, (q.tidy dir none file).log, by rw [hreplace, ← htree]⟩
  cases bytes with
  | error e => exact hend p e (tree_tidy h) (by simp only [replace, hdiscard])
  | ok b =>
    cases hcopy : faults.copy file with
    | some torn =>
      obtain ⟨e, hfill | ⟨part, hfill⟩⟩ := fill_of_torn h torn b
      · exact hend p e (tree_tidy h) (by simp only [replace, hcopy, hfill, hdiscard])
      · refine hend (p.filled spot file part) e (tree_tidy_filled h part) ?_
        simp only [replace, hcopy, hfill, hdiscard]
    | none =>
      have hfill : p.fill dir none file b = (p.filled spot file b, .ok ()) :=
        act_fill_of_hides h b
      cases hpromote : faults.promote file with
      | some e =>
        refine hend (p.filled spot file b) e (tree_tidy_filled h b) ?_
        simp only [replace, hcopy, hfill, hpromote, hdiscard, act]
      | none =>
        have hnone : ∀ place entry, (p.filled spot file b).tree.locate false dir file =
            .ok ⟨place, entry⟩ → entry = some .directory := by
          intro place entry hlocate
          refine Classical.byContradiction fun hne => ?_
          have hroom := (h.hasRoom_insert b).1 (hasRoom_iff.2 ⟨entry, hne, hlocate⟩)
          exact hnot ⟨⟨b, rfl⟩, hcopy, hpromote, place, hroom⟩
        obtain ⟨e, hrename⟩ := FileTree.exists_rename_eq_error (h.insert b).ends hnone
        have happly : (Action.promote file).apply dir (p.filled spot file b).tree = .error e :=
          hrename
        refine hend (p.filled spot file b) e (tree_tidy_filled h b) ?_
        simp only [replace, hcopy, hfill, hpromote, hdiscard, act, happly]

/-- Where the hidden name leads nowhere, nothing is done. -/
theorem exists_replace_of_error {e : OsError} (bytes : Except OsError ByteArray)
    (h : p.tree.locate false dir (ClusterFile.hidden file) = .error e) :
    ∃ e', p.replace dir faults file bytes = (p, .error e') := by
  have hw : ∀ b, (Action.fill file b).apply dir p.tree = .error e :=
    fun b => FileTree.write_of_error h b
  have htidy : p.tidy dir (faults.discard file) file = p :=
    tidy_of_isAbsent (FileTree.isAbsent_of_error h)
  cases bytes with
  | error e' => exact ⟨e', by simp only [replace, htidy]⟩
  | ok b =>
    cases hcopy : faults.copy file with
    | none => exact ⟨e, by simp only [replace, hcopy, fill, act, hw, htidy]⟩
    | some torn =>
      obtain ⟨left, e'⟩ := torn
      cases left with
      | none => exact ⟨e', by simp only [replace, hcopy, fill, htidy]⟩
      | some n => exact ⟨e, by simp only [replace, hcopy, fill, act, hw, htidy]⟩

end Progress

/-! ### The outcome of a copy -/

/-- What a copy finds in a file that it is told to write. -/
def foundBytes (tree : FileTree) (path : String) (dir : Place) (written : String)
    (original : ByteArray) : ByteArray :=
  if leadToOne tree path dir written then .empty else original

theorem bytesToCopy_eq_ok_iff {path written : String} :
    bytesToCopy tree path dir written = .ok bytes ↔
      ∃ original, tree.readRegular [] path = .ok original ∧
        bytes = foundBytes tree path dir written original := by
  rw [bytesToCopy]
  cases tree.readRegular [] path with
  | error e => simp [Except.map]
  | ok original =>
    simp only [Except.map, Except.ok.injEq, exists_eq_left']
    exact eq_comm

theorem exists_bytesToCopy_iff {path written : String} :
    (∃ bytes, bytesToCopy tree path dir written = .ok bytes) ↔
      ∃ original, tree.readRegular [] path = .ok original := by
  simp only [bytesToCopy_eq_ok_iff]
  exact ⟨fun ⟨_, original, h, _⟩ => ⟨original, h⟩, fun ⟨original, h⟩ => ⟨_, original, h, rfl⟩⟩

/-- A copy into a directory is a replacement there. -/
theorem atomicCopy_eq {source target : String} {result : Except OsError Unit}
    (hdir : tree.directory? target = some dir)
    (h : (⟨tree, []⟩ : Progress).replace dir faults file (bytesToCopy tree
      (Files.join source file) dir (ClusterFile.hidden file)) = (p, result)) :
    atomicCopy faults source file target tree =
      (p.tree, result.mapError (.publish (Files.join target file))) := by
  simp only [atomicCopy, hdir, h]
  cases result <;> rfl

/-- **A copy is all or nothing.** Into a directory in which the hidden name of the file leads to no
entry, or to a file that can be removed, a copy changes nothing but the file. What stood under the
hidden name is gone. If the copy fails the file is as it was, and if it does not, a file with
the bytes of the source stands in its place; if the source leads to the hidden file itself, an empty
one. It fails if and only if the source cannot be read, the write or the move fails by itself, or
one of the two names leads to no place, or that of the file to a directory. -/
theorem atomicCopy_allOrNothing (faults : Faults) (source file target : String) {tree : FileTree}
    {dir : Place} (hdir : tree.directory? target = some dir)
    (hhidden : tree.HoldsAtMostFile dir (ClusterFile.hidden file))
    (hdiscard : faults.discard file = none) :
    ∃ after result, atomicCopy faults source file target tree = (after, result) ∧
      after.IsAbsent dir (ClusterFile.hidden file) ∧
      (∀ place, ¬ tree.EndsAt dir (ClusterFile.hidden file) place →
        ¬ tree.EndsAt dir file place → after.get? place = tree.get? place) ∧
      (∀ failure, result = .error failure →
        (∃ e, failure = .publish (Files.join target file) e) ∧
        ∀ place, tree.EndsAt dir file place → after.get? place = tree.get? place) ∧
      (result = .ok () → ∃ place original,
        tree.EndsAt dir file place ∧ tree.readRegular [] (Files.join source file) = .ok original ∧
        after.get? place = some (.file (foundBytes tree (Files.join source file) dir
          (ClusterFile.hidden file) original))) ∧
      (result = .ok () ↔
        (∃ original, tree.readRegular [] (Files.join source file) = .ok original) ∧
        faults.copy file = none ∧ faults.promote file = none ∧
        (∃ place, tree.EndsAt dir (ClusterFile.hidden file) place) ∧
        ∃ place, HasRoom tree dir file place) := by
  have hreadable : (∃ bytes, bytesToCopy tree (Files.join source file) dir
        (ClusterFile.hidden file) = .ok bytes) ↔
      ∃ original, tree.readRegular [] (Files.join source file) = .ok original :=
    exists_bytesToCopy_iff
  rw [← hreadable]
  cases hlocate : tree.locate false dir (ClusterFile.hidden file) with
  | error e =>
    -- The hidden name ends nowhere: nothing is written, and nothing is there to be removed.
    obtain ⟨e', hreplace⟩ :
        ∃ e', (⟨tree, []⟩ : Progress).replace dir faults file _ = (_, .error e') :=
      Progress.exists_replace_of_error
        (bytesToCopy tree (Files.join source file) dir (ClusterFile.hidden file)) hlocate
    refine ⟨_, _, atomicCopy_eq hdir hreplace, FileTree.isAbsent_of_error hlocate,
      fun _ _ _ => rfl, ?_, nofun, nofun, ?_⟩
    · rintro failure ⟨⟩
      exact ⟨⟨e', rfl⟩, fun _ _ => rfl⟩
    · rintro ⟨-, -, -, ⟨place, hplace⟩, -⟩
      cases hlocate.symm.trans hplace
  | ok found =>
    obtain ⟨spot, h⟩ := exists_hides hhidden hlocate
    -- All that can fail, by itself or for what stands in the way. Otherwise the file is moved.
    by_cases hgoes : (∃ bytes, bytesToCopy tree (Files.join source file) dir
        (ClusterFile.hidden file) = .ok bytes) ∧ faults.copy file = none ∧
      faults.promote file = none ∧ ∃ place, HasRoom tree dir file place
    · obtain ⟨⟨bytes, hbytes⟩, hcopy, hpromote, place, hplace⟩ := id hgoes
      obtain ⟨original, hread, rfl⟩ := bytesToCopy_eq_ok_iff.1 hbytes
      obtain ⟨log, hreplace⟩ : ∃ log, (⟨tree, []⟩ : Progress).replace dir faults file (.ok _) = _ :=
        Progress.replace_of_hasRoom h hcopy hpromote hplace _
      rw [← hbytes] at hreplace
      refine ⟨_, _, atomicCopy_eq hdir hreplace, h.isAbsent_of_hasRoom hplace _, ?_, nofun, ?_, ?_⟩
      · intro other hhid hfile
        have hne : place ≠ other := fun heq => hfile (heq ▸ hplace.ends)
        have hspot : other ≠ spot := fun heq => hhid (heq ▸ h.ends)
        rw [Table.get?_insert, if_neg hne, Table.get?_erase, if_neg hspot]
      · intro _
        exact ⟨place, original, hplace.ends, hread, (Table.get?_insert ..).trans (if_pos rfl)⟩
      · exact ⟨fun _ => ⟨hgoes.1, hcopy, hpromote, ⟨spot, h.ends⟩, place, hplace⟩, fun _ => rfl⟩
    · obtain ⟨e, log, hreplace⟩ : ∃ e log, (⟨tree, []⟩ : Progress).replace dir faults file _ = _ :=
        Progress.exists_replace_eq_error h hdiscard hgoes
      have hgone : (tree.erase spot).get? spot = none := (Table.get?_erase ..).trans (if_pos rfl)
      refine ⟨_, _, atomicCopy_eq hdir hreplace, h.erase.ends.isAbsent hgone, ?_, ?_, nofun, nofun,
        ?_⟩
      · intro other hhid _
        have hspot : other ≠ spot := fun heq => hhid (heq ▸ h.ends)
        rw [Table.get?_erase, if_neg hspot]
      · rintro failure ⟨⟩
        refine ⟨⟨e, rfl⟩, fun place hplace => ?_⟩
        rw [Table.get?_erase, if_neg (h.ne_of_endsAt hplace)]
      · rintro ⟨hread, hcopy, hpromote, -, hplace⟩
        exact absurd ⟨hread, hcopy, hpromote, hplace⟩ hgoes

/-- A published file, its successor, and what an earlier copy has left of it. -/
def leftoverTree : FileTree := .ofList [
  (["out"], .directory),
  (["out", ".web.yaml.rngsyn"], .file "CLUS".toUTF8),
  (["out", "web.yaml"], .file "CLUSTER: w0\n".toUTF8),
  (["src"], .directory),
  (["src", "web.yaml"], .file "CLUSTER: w1\n".toUTF8)]

/-- The successor was left in full under the hidden name, and the source is a link to it. -/
def linkedBackTree : FileTree := .ofList [
  (["out"], .directory),
  (["out", ".web.yaml.rngsyn"], .file "CLUSTER: w1\n".toUTF8),
  (["out", "web.yaml"], .file "CLUSTER: w0\n".toUTF8),
  (["src"], .directory),
  (["src", "web.yaml"], .link "../out/.web.yaml.rngsyn")]

/-- A disk that is full after five bytes of a copy. -/
def fullWhileCopying : Faults where
  copy _ := some ⟨some 5, .other "No space left on device (os error 28)"⟩

theorem isEntryName_web : IsEntryName "web.yaml" ∧ IsEntryName (ClusterFile.hidden "web.yaml") := by
  decide +kernel

theorem locate_srcWeb (hsrc : tree.get? ["src"] = some .directory) :
    tree.locate true [] (Files.join "src" "web.yaml") =
      tree.walk true maxLinks ["src"] ["web.yaml"] := by
  have hpath : (Files.join "src" "web.yaml").isEmpty = false ∧
      (Files.join "src" "web.yaml").toList.contains '\x00' = false ∧
      (Files.join "src" "web.yaml").startsWith "/" = false := by decide +kernel
  have hnames : names (Files.join "src" "web.yaml") = ["src", "web.yaml"] := by decide +kernel
  have hallowed : nameError? "src" = none := by decide +kernel
  obtain ⟨hempty, hzero, htop⟩ := hpath
  rw [FileTree.locate, hempty, hzero, htop, hnames]
  simp [FileTree.walk, hsrc, hallowed]

theorem locate_srcWeb_leftoverTree :
    leftoverTree.locate true [] (Files.join "src" "web.yaml") =
      .ok ⟨["src", "web.yaml"], some (.file "CLUSTER: w1\n".toUTF8)⟩ := by
  have hfile : leftoverTree.get? ["src", "web.yaml"] = some (.file "CLUSTER: w1\n".toUTF8) := by
    decide +kernel
  rw [locate_srcWeb (by decide +kernel)]
  simp [FileTree.walk, hfile, isEntryName_web.1.allowed]

theorem locate_srcWeb_linkedBackTree :
    linkedBackTree.locate true [] (Files.join "src" "web.yaml") =
      .ok ⟨["out", ".web.yaml.rngsyn"], some (.file "CLUSTER: w1\n".toUTF8)⟩ := by
  have hlink : linkedBackTree.get? ["src", "web.yaml"] =
      some (.link "../out/.web.yaml.rngsyn") := by decide +kernel
  have htarget : names "../out/.web.yaml.rngsyn" = ["..", "out", ".web.yaml.rngsyn"] ∧
      "../out/.web.yaml.rngsyn".startsWith "/" = false := by decide +kernel
  have hout : linkedBackTree.get? ["out"] = some .directory := by decide +kernel
  have hfile : linkedBackTree.get? ["out", ".web.yaml.rngsyn"] =
      some (.file "CLUSTER: w1\n".toUTF8) := by decide +kernel
  have hallowed : nameError? "out" = none ∧ nameError? ".web.yaml.rngsyn" = none := by
    decide +kernel
  rw [locate_srcWeb (by decide +kernel)]
  simp [FileTree.walk, hlink, htarget, hout, hfile, hallowed, isEntryName_web.1.allowed, maxLinks]

theorem directory?_out (hout : tree.get? ["out"] = some .directory) :
    tree.directory? "out" = some ["out"] :=
  FileTree.directory?_entryName (by decide +kernel) hout

/-- The hypotheses of `atomicCopy_allOrNothing` are satisfiable, with a copy that goes through and
one that breaks off, and with something left under the hidden name. -/
theorem atomicCopy_allOrNothing_leftoverTree :
    leftoverTree.directory? "out" = some ["out"] ∧
      leftoverTree.HoldsAtMostFile ["out"] (ClusterFile.hidden "web.yaml") ∧
      (∃ after, atomicCopy .none "src" "web.yaml" "out" leftoverTree = (after, .ok ()) ∧
        after.IsAbsent ["out"] (ClusterFile.hidden "web.yaml") ∧
        after.get? ["out", "web.yaml"] = some (.file "CLUSTER: w1\n".toUTF8)) ∧
      ∃ after e, atomicCopy fullWhileCopying "src" "web.yaml" "out" leftoverTree =
          (after, .error (.publish (Files.join "out" "web.yaml") e)) ∧
        after.IsAbsent ["out"] (ClusterFile.hidden "web.yaml") ∧
        after.get? ["out", "web.yaml"] = some (.file "CLUSTER: w0\n".toUTF8) := by
  have hdir : leftoverTree.directory? "out" = some ["out"] := directory?_out (by decide +kernel)
  have hhidden : leftoverTree.HoldsAtMostFile ["out"] (ClusterFile.hidden "web.yaml") :=
    FileTree.holdsAtMostFile_entryName isEntryName_web.2 (by decide +kernel)
  have hread := FileTree.readRegular_of_locate locate_srcWeb_leftoverTree
  have hends : leftoverTree.EndsAt ["out"] "web.yaml" ["out", "web.yaml"] :=
    FileTree.locate_entryName isEntryName_web.1
  have hhid : leftoverTree.EndsAt ["out"] (ClusterFile.hidden "web.yaml")
      ["out", ".web.yaml.rngsyn"] := FileTree.locate_entryName isEntryName_web.2
  refine ⟨hdir, hhidden, ?_, ?_⟩
  · obtain ⟨after, result, hcopy, habsent, -, -, hok, hiff⟩ :=
      atomicCopy_allOrNothing .none "src" "web.yaml" "out" hdir hhidden rfl
    have hresult : result = .ok () :=
      hiff.2 ⟨⟨_, hread⟩, rfl, rfl, ⟨_, hhid⟩, _, hends, by decide +kernel⟩
    obtain ⟨place, original, hplace, horiginal, hget⟩ := hok hresult
    obtain rfl := hplace.eq hends
    obtain rfl := Except.ok.inj (horiginal.symm.trans hread)
    rw [foundBytes, leadToOne, locate_srcWeb_leftoverTree,
      FileTree.locate_true_of_endsAt hhid (by decide +kernel)] at hget
    exact ⟨after, hresult ▸ hcopy, habsent, hget⟩
  · obtain ⟨after, result, hcopy, habsent, -, herror, -, hiff⟩ :=
      atomicCopy_allOrNothing fullWhileCopying "src" "web.yaml" "out" hdir hhidden rfl
    cases result with
    | ok u => exact absurd (hiff.1 rfl).2.1 (by simp [fullWhileCopying])
    | error failure =>
      obtain ⟨⟨e, rfl⟩, hsame⟩ := herror failure rfl
      exact ⟨after, e, hcopy, habsent, (hsame _ hends).trans (by decide +kernel)⟩

/-- **A copy can empty its source.** The source of `web.yaml` is a link to the hidden file, which an
earlier copy has left. It can be read, but the copy empties it first: the copy ends well, and an
empty file takes the place of the published one. -/
theorem atomicCopy_empties_linkedBack :
    linkedBackTree.directory? "out" = some ["out"] ∧
      linkedBackTree.HoldsAtMostFile ["out"] (ClusterFile.hidden "web.yaml") ∧
      linkedBackTree.readRegular [] (Files.join "src" "web.yaml") =
        .ok "CLUSTER: w1\n".toUTF8 ∧
      ∃ after, atomicCopy .none "src" "web.yaml" "out" linkedBackTree = (after, .ok ()) ∧
        after.get? ["out", "web.yaml"] = some (.file .empty) := by
  have hdir : linkedBackTree.directory? "out" = some ["out"] := directory?_out (by decide +kernel)
  have hw : linkedBackTree.IsWritable ["out", ".web.yaml.rngsyn"] := by decide +kernel
  have hread := FileTree.readRegular_of_locate locate_srcWeb_linkedBackTree
  have hends : linkedBackTree.EndsAt ["out"] (ClusterFile.hidden "web.yaml")
      ["out", ".web.yaml.rngsyn"] :=
    FileTree.locate_entryName isEntryName_web.2
  have hplace : HasRoom linkedBackTree ["out"] "web.yaml" ["out", "web.yaml"] :=
    ⟨FileTree.locate_entryName isEntryName_web.1, by decide +kernel⟩
  have hbytes : bytesToCopy linkedBackTree (Files.join "src" "web.yaml") ["out"]
      (ClusterFile.hidden "web.yaml") = .ok .empty := by
    refine bytesToCopy_eq_ok_iff.2 ⟨_, hread, ?_⟩
    rw [foundBytes, leadToOne, locate_srcWeb_linkedBackTree,
      FileTree.locate_true_of_endsAt hends hw]
    rfl
  obtain ⟨log, hreplace⟩ : ∃ log, (⟨linkedBackTree, []⟩ : Progress).replace ["out"] .none "web.yaml"
      (.ok .empty) = _ :=
    Progress.replace_of_hasRoom ⟨hends, hw⟩ rfl rfl hplace .empty
  rw [← hbytes] at hreplace
  exact ⟨hdir, FileTree.holdsAtMostFile_entryName isEntryName_web.2 hw, hread, _,
    atomicCopy_eq hdir hreplace, (Table.get?_insert ..).trans (if_pos rfl)⟩

end Publish
end ClusterSync
