/-
# Where a path ends

What is written, moved or removed stands where its path ends, a link at the end not followed
(`FileTree.EndsAt`). Unless that is a directory, the place has the last name of the path
(`EndsAt.getLast?_eq`), so that two paths with different last names end at different places.

Let two trees differ in one place, with no directory there before and nothing but a file behind
(`DiffersAt`). A walk comes to that place at its end, or it does not get any further from there
(`walk_at_spot`); elsewhere it stops in both trees or in none (`walk_at_stop`). So it ends in both
trees alike, or at that place in both, or it fails in the second tree (`walk_differsAt`). It can
have come through in the first tree only if a link stood there.
-/

import ClusterSync.Proofs.Files.Names

namespace ClusterSync
namespace FileTree

open Files

variable {tree after : FileTree} {follow : Bool} {links : Nat} {here place spot dir : Place}
  {rest : List String} {entry : Option Entry} {name path other : String} {bytes : ByteArray}

theorem ne_nil_of_walk (hwalk : tree.walk follow links here rest = .ok ⟨place, entry⟩)
    (hne : entry ≠ some .directory) : rest ≠ [] := by
  rintro rfl
  rw [walk] at hwalk
  cases hwalk
  exact hne rfl

/-- What a walk ends with stands where it ends. -/
theorem get?_of_walk (hwalk : tree.walk follow links here rest = .ok ⟨place, entry⟩)
    (hne : entry ≠ some .directory) : tree.get? place = entry := by
  fun_induction tree.walk follow links here rest with
  | case1 links here => exact absurd hwalk (by rintro ⟨⟩; exact hne rfl)
  | case2 links here name rest hstay ih => exact ih hwalk
  | case3 links here rest hstay ih => exact ih hwalk
  | case5 links here name rest hstay hup hname hdir ih => exact ih hwalk
  | case8 here name rest hstay hup hname target hlink hend links ih => exact ih hwalk
  | case6 links here name rest hstay hup hname target hlink hend => cases hwalk; exact hlink
  | case9 links here name rest hstay hup hname bytes hfile hend => cases hwalk; exact hfile
  | case11 links here name rest hstay hup hname hnone hend => cases hwalk; exact hnone
  | case4 => cases hwalk
  | case7 => cases hwalk
  | case10 => cases hwalk
  | case12 => cases hwalk

/-- The place where a walk ends has the last of the names. -/
theorem getLast?_of_walk (hwalk : tree.walk false links here rest = .ok ⟨place, entry⟩)
    (hne : entry ≠ some .directory) : place.getLast? = rest.getLast? := by
  have hcons : ∀ {links here} {name : String} {rest : List String},
      tree.walk false links here rest = .ok ⟨place, entry⟩ →
        (name :: rest).getLast? = rest.getLast? := by
    intro links here name rest hrest
    obtain ⟨first, more, rfl⟩ := List.exists_cons_of_ne_nil (ne_nil_of_walk hrest hne)
    exact List.getLast?_cons_cons
  fun_induction tree.walk false links here rest with
  | case1 links here => exact absurd hwalk (by rintro ⟨⟩; exact hne rfl)
  | case2 links here name rest hstay ih => exact (ih hwalk).trans (hcons hwalk).symm
  | case3 links here rest hstay ih => exact (ih hwalk).trans (hcons hwalk).symm
  | case5 links here name rest hstay hup hname hdir ih =>
    exact (ih hwalk).trans (hcons hwalk).symm
  | case8 here name rest hstay hup hname target hlink hend links ih =>
    -- A link that is followed stands in front of other names.
    have hrest : rest ≠ [] := by simpa using hend
    obtain ⟨first, more, rfl⟩ := List.exists_cons_of_ne_nil hrest
    rw [ih hwalk, List.getLast?_append, List.getLast?_cons_cons]
    simp [List.getLast?_cons]
  | case6 links here name rest hstay hup hname target hlink hend =>
    obtain rfl : rest = [] := by simpa using hend
    cases hwalk
    simp
  | case9 links here name rest hstay hup hname bytes hfile hend =>
    obtain rfl : rest = [] := by simpa using hend
    cases hwalk
    simp
  | case11 links here name rest hstay hup hname hnone hend =>
    obtain rfl : rest = [] := by simpa using hend
    cases hwalk
    simp
  | case4 => cases hwalk
  | case7 => cases hwalk
  | case10 => cases hwalk
  | case12 => cases hwalk

/-- It makes no difference whether a link at the end is followed where none stands there. -/
theorem walk_follow (hend : ∀ place target,
      tree.walk false links here rest ≠ .ok ⟨place, some (.link target)⟩) :
    tree.walk true links here rest = tree.walk false links here rest := by
  fun_induction tree.walk false links here rest with
  | case1 links here => rw [walk]
  | case2 links here name rest hstay ih =>
    rw [walk, if_pos hstay]
    exact ih hend
  | case3 links here rest hstay ih =>
    rw [walk, if_neg hstay, if_pos rfl]
    exact ih hend
  | case4 links here name rest hstay hup e hname => rw [walk, if_neg hstay, if_neg hup, hname]
  | case5 links here name rest hstay hup hname hdir ih =>
    rw [walk, if_neg hstay, if_neg hup, hname]
    simp only [hdir]
    exact ih hend
  | case6 links here name rest hstay hup hname target hlink hempty => exact absurd rfl (hend _ _)
  | case7 here name rest hstay hup hname target hlink hmore =>
    rw [walk, if_neg hstay, if_neg hup, hname]
    simp [hlink]
  | case8 here name rest hstay hup hname target hlink hmore links ih =>
    rw [walk, if_neg hstay, if_neg hup, hname]
    simp only [hlink, Bool.not_true, Bool.and_false, Bool.false_eq_true, if_false]
    exact ih hend
  | case9 links here name rest hstay hup hname bytes hfile hempty =>
    rw [walk, if_neg hstay, if_neg hup, hname]
    simp only [hfile, hempty, if_true]
  | case10 links here name rest hstay hup hname bytes hfile hmore =>
    rw [walk, if_neg hstay, if_neg hup, hname]
    simp only [hfile, hmore, Bool.false_eq_true, if_false]
  | case11 links here name rest hstay hup hname hnone hempty =>
    rw [walk, if_neg hstay, if_neg hup, hname]
    simp only [hnone, hempty, if_true]
  | case12 links here name rest hstay hup hname hnone hmore =>
    rw [walk, if_neg hstay, if_neg hup, hname]
    simp only [hnone, hmore, Bool.false_eq_true, if_false]

/-! ### A change of one place -/

/-- Do two trees differ in one place at most, with no directory there before, and nothing or a file
behind? -/
structure DiffersAt (spot : Place) (tree after : FileTree) : Prop where
  elsewhere : ∀ p, p ≠ spot → after.get? p = tree.get? p
  before : tree.get? spot ≠ some .directory
  behind : after.IsWritable spot

/-- How one walk can end in two such trees. -/
inductive EndsAlike (spot : Place) (tree after : FileTree) :
    Except OsError Spot → Except OsError Spot → Prop
  | same (result : Except OsError Spot) : EndsAlike spot tree after result result
  | there : EndsAlike spot tree after (.ok ⟨spot, tree.get? spot⟩) (.ok ⟨spot, after.get? spot⟩)
  | failed (e e' : OsError) : EndsAlike spot tree after (.error e) (.error e')
  | cut (result : Except OsError Spot) (e : OsError) (target : String)
      (hlink : tree.get? spot = some (.link target)) : EndsAlike spot tree after result (.error e)

/-- At the place that has changed a walk ends, or fails behind it. -/
theorem walk_at_spot (h : DiffersAt spot tree after) (hstay : ¬ (name = "" ∨ name = "."))
    (hup : name ≠ "..") (hname : nameError? name = none) (heq : here ++ [name] = spot) :
    EndsAlike spot tree after (tree.walk false links here (name :: rest))
      (after.walk false links here (name :: rest)) := by
  have hbehind : (rest = [] → after.walk false links here (name :: rest) =
        .ok ⟨spot, after.get? spot⟩) ∧
      (rest ≠ [] → ∃ e, after.walk false links here (name :: rest) = .error e) := by
    rw [walk, if_neg hstay, if_neg hup, hname, heq]
    cases hget : after.get? spot with
    | none => simp +contextual
    | some entry =>
      cases entry with
      | file bytes => simp +contextual
      | directory => exact absurd hget h.behind.ne_directory
      | link target => exact absurd hget (h.behind.ne_link target)
  by_cases hrest : rest = []
  · have hbefore : tree.walk false links here (name :: rest) = .ok ⟨spot, tree.get? spot⟩ := by
      rw [walk, if_neg hstay, if_neg hup, hname, heq, hrest]
      cases hget : tree.get? spot with
      | none => rfl
      | some entry =>
        cases entry with
        | file bytes => rfl
        | directory => exact absurd hget h.before
        | link target => rfl
    rw [hbefore, hbehind.1 hrest]
    exact .there
  · obtain ⟨e, herror⟩ := hbehind.2 hrest
    rw [herror]
    cases hget : tree.get? spot with
    | none =>
      rw [walk, if_neg hstay, if_neg hup, hname, heq, hget]
      simp only [hrest, List.isEmpty_iff, if_false]
      exact .failed _ e
    | some entry =>
      cases entry with
      | file bytes =>
        rw [walk, if_neg hstay, if_neg hup, hname, heq, hget]
        simp only [hrest, List.isEmpty_iff, if_false]
        exact .failed _ e
      | directory => exact absurd hget h.before
      | link target => exact .cut _ e target hget

/-- Where a walk stops, by its end or by a failure, it does so in both trees. -/
theorem walk_at_stop (h : DiffersAt spot tree after) (hstay : ¬ (name = "" ∨ name = "."))
    (hup : name ≠ "..") (hname : nameError? name = none)
    (hdir : tree.get? (here ++ [name]) ≠ some .directory)
    (hlink : ∀ target, tree.get? (here ++ [name]) = some (.link target) → rest = [] ∨ links = 0) :
    EndsAlike spot tree after (tree.walk false links here (name :: rest))
      (after.walk false links here (name :: rest)) := by
  by_cases heq : here ++ [name] = spot
  · exact walk_at_spot h hstay hup hname heq
  · rw [walk, walk, if_neg hstay, if_neg hstay, if_neg hup, if_neg hup, hname, h.elsewhere _ heq]
    cases hget : tree.get? (here ++ [name]) with
    | none => exact .same _
    | some entry =>
      cases entry with
      | file bytes => exact .same _
      | directory => exact absurd hget hdir
      | link target =>
        obtain rfl | rfl := hlink target hget
        · exact .same _
        · simp only
          split
          · exact .same _
          · exact .same _

/-- **Where one place has changed** a walk ends as before, or ends at that place as before, or
fails. If it did not fail before, a link stood there. -/
theorem walk_differsAt (h : DiffersAt spot tree after) (links : Nat) (here : Place)
    (rest : List String) :
    EndsAlike spot tree after (tree.walk false links here rest)
      (after.walk false links here rest) := by
  induction links, here, rest using walk.induct tree false with
  | case1 links here =>
    rw [walk, walk]
    exact .same _
  | case2 links here name rest hstay ih =>
    rw [walk, walk, if_pos hstay, if_pos hstay]
    exact ih
  | case3 links here rest hstay ih =>
    rw [walk, walk, if_neg hstay, if_neg hstay, if_pos rfl, if_pos rfl]
    exact ih
  | case4 links here name rest hstay hup e hname =>
    rw [walk, walk, if_neg hstay, if_neg hstay, if_neg hup, if_neg hup, hname]
    exact .same _
  | case5 links here name rest hstay hup hname hdir ih =>
    have hne : here ++ [name] ≠ spot := fun heq => h.before (heq ▸ hdir)
    rw [walk, walk, if_neg hstay, if_neg hstay, if_neg hup, if_neg hup, hname, h.elsewhere _ hne]
    simp only [hdir]
    exact ih
  | case8 here name rest hstay hup hname target hlink hmore links ih =>
    by_cases heq : here ++ [name] = spot
    · exact walk_at_spot h hstay hup hname heq
    · rw [walk, walk, if_neg hstay, if_neg hstay, if_neg hup, if_neg hup, hname,
        h.elsewhere _ heq]
      simp only [hlink, hmore]
      exact ih
  | case6 links here name rest hstay hup hname target hlink hend =>
    have hrest : rest = [] := by simpa using hend
    exact walk_at_stop h hstay hup hname (by simp [hlink]) fun _ _ => .inl hrest
  | case7 here name rest hstay hup hname target hlink hmore =>
    exact walk_at_stop h hstay hup hname (by simp [hlink]) fun _ _ => .inr rfl
  | case9 links here name rest hstay hup hname bytes hfile hend =>
    exact walk_at_stop h hstay hup hname (by simp [hfile]) (by simp [hfile])
  | case10 links here name rest hstay hup hname bytes hfile hmore =>
    exact walk_at_stop h hstay hup hname (by simp [hfile]) (by simp [hfile])
  | case11 links here name rest hstay hup hname hnone hend =>
    exact walk_at_stop h hstay hup hname (by simp [hnone]) (by simp [hnone])
  | case12 links here name rest hstay hup hname hnone hmore =>
    exact walk_at_stop h hstay hup hname (by simp [hnone]) (by simp [hnone])

/-! ### Ends of paths -/

/-- Does a path end at a place, a link there not followed? Nothing need stand there. -/
def EndsAt (tree : FileTree) (dir : Place) (path : String) (place : Place) : Prop :=
  tree.locate false dir path = .ok ⟨place, tree.get? place⟩

theorem exists_walk_of_locate {spot : Spot} (h : tree.locate follow dir path = .ok spot) :
    ∃ here, tree.walk follow maxLinks here (names path) = .ok spot := by
  rw [locate] at h
  split at h
  · cases h
  · split at h
    · cases h
    · exact ⟨_, h⟩

theorem endsAt_of_locate (h : tree.locate false dir path = .ok ⟨place, entry⟩)
    (hne : entry ≠ some .directory) : tree.EndsAt dir path place := by
  obtain ⟨here, hwalk⟩ := exists_walk_of_locate h
  rw [EndsAt, h, get?_of_walk hwalk hne]

/-- A path ends at a place with its last name. -/
theorem EndsAt.getLast?_eq (h : tree.EndsAt dir path place)
    (hne : tree.get? place ≠ some .directory) : place.getLast? = (names path).getLast? := by
  obtain ⟨here, hwalk⟩ := exists_walk_of_locate h
  exact getLast?_of_walk hwalk hne

theorem EndsAt.eq (h : tree.EndsAt dir path place) (hspot : tree.EndsAt dir path spot) :
    place = spot := by
  have heq := h.symm.trans hspot
  cases heq
  rfl

theorem locate_differsAt (h : DiffersAt spot tree after) (dir : Place) (path : String) :
    EndsAlike spot tree after (tree.locate false dir path) (after.locate false dir path) := by
  rw [locate, locate]
  split
  · exact .same _
  · split
    · exact .same _
    · exact walk_differsAt h _ _ _

theorem locate_follow (hend : ∀ place target,
      tree.locate false dir path ≠ .ok ⟨place, some (.link target)⟩) :
    tree.locate true dir path = tree.locate false dir path := by
  rw [locate] at hend ⊢
  rw [locate]
  split
  · rfl
  · next hempty =>
    rw [if_neg hempty] at hend
    split
    · rfl
    · next hzero =>
      rw [if_neg hzero] at hend
      exact walk_follow hend

/-- A path that ended at the place which has changed still ends there, if no link stood there. -/
theorem EndsAt.of_differsAt (hends : tree.EndsAt dir path spot) (h : DiffersAt spot tree after)
    (hlink : ∀ target, tree.get? spot ≠ some (.link target)) : after.EndsAt dir path spot := by
  have halike := locate_differsAt h dir path
  rw [hends] at halike
  generalize hlocate : after.locate false dir path = result at halike
  cases halike with
  | same => exact endsAt_of_locate hlocate h.before
  | there => exact hlocate
  | cut _ e target htarget => exact absurd htarget (hlink target)

/-! ### Operations where a path ends -/

theorem readRegular_of_locate (h : tree.locate true dir path = .ok ⟨place, some (.file bytes)⟩) :
    tree.readRegular dir path = .ok bytes := by
  rw [readRegular, read, h]
  rfl

theorem locate_true_of_endsAt (hends : tree.EndsAt dir path spot) (hw : tree.IsWritable spot) :
    tree.locate true dir path = .ok ⟨spot, tree.get? spot⟩ := by
  rw [locate_follow, hends]
  intro place target hlink
  obtain ⟨rfl, hget⟩ := Spot.mk.inj (Except.ok.inj (hends.symm.trans hlink))
  exact hw.ne_link target hget

theorem write_of_endsAt (hends : tree.EndsAt dir path spot) (hw : tree.IsWritable spot)
    (bytes : ByteArray) : tree.write dir path bytes = .ok (tree.insert spot (.file bytes)) := by
  rw [write, locate_true_of_endsAt hends hw]
  simp only [bind, Except.bind, pure, Except.pure]
  cases hget : tree.get? spot with
  | none => rfl
  | some entry =>
    cases entry with
    | file old => rfl
    | directory => exact absurd hget hw.ne_directory
    | link target => exact absurd hget (hw.ne_link target)

theorem leadsSomewhere_of_endsAt (hends : tree.EndsAt dir path spot) (hw : tree.IsWritable spot) :
    tree.leadsSomewhere dir path = (tree.get? spot).isSome := by
  rw [leadsSomewhere, locate_true_of_endsAt hends hw]

theorem remove_of_endsAt (hends : tree.EndsAt dir path spot)
    (hget : tree.get? spot = some (.file bytes)) :
    tree.remove dir path = .ok (tree.erase spot) := by
  rw [remove, hends]
  simp only [bind, Except.bind, pure, Except.pure, hget]

theorem rename_of_endsAt (hends : tree.EndsAt dir path spot)
    (hget : tree.get? spot = some (.file bytes)) (hother : tree.EndsAt dir other place)
    (hne : tree.get? place ≠ some .directory) :
    tree.rename dir path other = .ok ((tree.erase spot).insert place (.file bytes)) := by
  rw [rename, hends, hother]
  simp only [bind, Except.bind, pure, Except.pure, hget]

/-- Nothing is moved to where a directory stands, or to no place at all. -/
theorem exists_rename_eq_error (hends : tree.EndsAt dir path spot)
    (hother : ∀ place entry, tree.locate false dir other = .ok ⟨place, entry⟩ →
      entry = some .directory) : ∃ e, tree.rename dir path other = .error e := by
  rw [rename, hends]
  cases hlocate : tree.locate false dir other with
  | error e => exact ⟨e, rfl⟩
  | ok found =>
    obtain ⟨place, entry⟩ := found
    obtain rfl := hother place entry hlocate
    cases tree.get? spot with
    | none => exact ⟨_, rfl⟩
    | some source => exact ⟨_, rfl⟩

/-- A path that ends nowhere cannot be written. -/
theorem write_of_error {e : OsError} (h : tree.locate false dir path = .error e)
    (bytes : ByteArray) : tree.write dir path bytes = .error e := by
  have hfollow : tree.locate true dir path = .error e := by
    rw [locate_follow (by simp [h]), h]
  rw [write, hfollow]
  rfl

end FileTree
end ClusterSync
