/-
# Folding and publishing

Publishing renames keys, and where two keys of a cluster get one name the greatest of them counts
(`Normal.get?_ofAttributes`). Folding tells keys apart as they are, so of two keys that get one
name it keeps both. Hence it matters whether sets are brought into the form of publishing before
they are folded or afterwards, but only where the main cluster has the greatest of the keys that
meet: it then `outlasts` the added ones (`Normal.get?_ofAttributes_overlay`).

Where no cluster is laid over another one no keys meet, so under the other policies the order does
not matter (`Normal.ofAttributes_meet`).
-/

import ClusterSync.Proofs.Cluster.Folding
import ClusterSync.Proofs.Cluster.Normal

namespace ClusterSync
namespace Normal

variable {data old new : Attributes} {key k : String}

/-- The greatest of the keys that are published under a key. -/
def lastKey? (data : Attributes) (key : String) : Option String :=
  (data.keys.filter fun k => ofKey k = key).getLast?

theorem lastKey?_eq_none_iff : lastKey? data key = none ↔ ∀ k ∈ data.keys, ofKey k ≠ key := by
  simp [lastKey?]

theorem lastKey?_eq_some_iff : lastKey? data key = some k ↔
    k ∈ data.keys ∧ ofKey k = key ∧ ∀ k' ∈ data.keys, ofKey k' = key → k' ≤ k := by
  have hmem {k : String} : k ∈ (data.keys.filter fun k => ofKey k = key) ↔
      k ∈ data.keys ∧ ofKey k = key := by simp
  have hsorted : (data.keys.filter fun k => ofKey k = key).Pairwise (· < ·) :=
    data.sorted_keys.filter _
  have hlast {k : String} (h : lastKey? data key = some k) :
      k ∈ data.keys ∧ ofKey k = key ∧ ∀ k' ∈ data.keys, ofKey k' = key → k' ≤ k := by
    obtain ⟨front, hfront⟩ := List.getLast?_eq_some_iff.1 h
    rw [hfront] at hmem hsorted
    obtain ⟨hkey, hname⟩ := hmem.1 (List.mem_append_right front (List.mem_singleton_self k))
    refine ⟨hkey, hname, fun k' hk' hname' => ?_⟩
    rcases List.mem_append.1 (hmem.2 ⟨hk', hname'⟩) with hbefore | hlast
    · exact Std.le_of_lt
        ((List.pairwise_append.1 hsorted).2.2 k' hbefore k (List.mem_singleton_self k))
    · exact Std.le_of_eq (List.mem_singleton.1 hlast)
  refine ⟨hlast, fun ⟨hkey, hname, hmax⟩ => ?_⟩
  cases h : lastKey? data key with
  | none => exact absurd hname (lastKey?_eq_none_iff.1 h k hkey)
  | some last =>
    obtain ⟨hlastKey, hlastName, hlastMax⟩ := hlast h
    exact congrArg some
      (Std.le_antisymm (hmax last hlastKey hlastName) (hlastMax k hkey hname))

/-- **Of the keys that are published under one key the greatest counts.** -/
theorem get?_ofAttributes (data : Attributes) (key : String) :
    (ofAttributes data).get? key =
      (lastKey? data key).bind fun k => (data.get? k).map ofAttribute := by
  cases h : lastKey? data key with
  | none =>
    refine Table.get?_overlayList_of_forall_ne fun e he heq => ?_
    obtain ⟨x, hx, rfl⟩ := List.mem_map.1 he
    exact lastKey?_eq_none_iff.1 h x.1 (List.mem_map_of_mem hx) heq
  | some k =>
    obtain ⟨hkey, rfl, hmax⟩ := lastKey?_eq_some_iff.1 h
    obtain ⟨a, hget⟩ := Table.mem_keys_iff_exists.1 hkey
    obtain ⟨before, after, hentries⟩ := List.append_of_mem (Table.mem_entries_iff.2 hget)
    have hsorted := data.sorted
    rw [hentries] at hsorted
    -- What comes after the greatest of the keys is published under other ones.
    have hafter : ∀ e ∈ after.map fun e => (ofKey e.1, ofAttribute e.2), e.1 ≠ ofKey k := by
      intro e he heq
      obtain ⟨x, hx, rfl⟩ := List.mem_map.1 he
      have hlt : k < x.1 :=
        List.rel_of_pairwise_cons (List.pairwise_append.1 hsorted).2.1 hx
      have hx' : x.1 ∈ data.keys := List.mem_map_of_mem (by simp [hentries, hx])
      exact Std.not_le.2 hlt (hmax x.1 hx' heq)
    rw [ofAttributes, hentries, List.map_append, List.map_cons, Table.get?_ofList_last hafter]
    simp [hget]

/-- Do both have keys that are published under a key, the old ones the greatest of all? -/
def outlasts (old new : Attributes) (key : String) : Bool :=
  match lastKey? old key, lastKey? new key with
  | some k, some k' => decide (k' < k)
  | _, _ => false

theorem outlasts_iff : outlasts old new key = true ↔
    ∃ k k', lastKey? old key = some k ∧ lastKey? new key = some k' ∧ k' < k := by
  rw [outlasts]
  cases lastKey? old key <;> cases lastKey? new key <;> simp

theorem lastKey?_overlay_of_outlasts (h : outlasts old new key = true) :
    lastKey? (old.overlay new) key = lastKey? old key := by
  obtain ⟨k, k', hold, hnew, hlt⟩ := outlasts_iff.1 h
  obtain ⟨hkey, hname, hmax⟩ := lastKey?_eq_some_iff.1 hold
  obtain ⟨-, -, hmax'⟩ := lastKey?_eq_some_iff.1 hnew
  rw [hold, lastKey?_eq_some_iff]
  refine ⟨Table.mem_keys_overlay.2 (.inl hkey), hname, fun x hx hxname => ?_⟩
  rcases Table.mem_keys_overlay.1 hx with hx | hx
  · exact hmax x hx hxname
  · exact Std.le_trans (hmax' x hx hxname) (Std.le_of_lt hlt)

theorem lastKey?_overlay_of_not_outlasts (h : outlasts old new key = false) :
    lastKey? (old.overlay new) key = (lastKey? new key).or (lastKey? old key) := by
  cases hnew : lastKey? new key with
  | none =>
    have hother := lastKey?_eq_none_iff.1 hnew
    cases hold : lastKey? old key with
    | none =>
      have hother' := lastKey?_eq_none_iff.1 hold
      refine lastKey?_eq_none_iff.2 fun x hx => ?_
      exact (Table.mem_keys_overlay.1 hx).elim (hother' x) (hother x)
    | some k =>
      obtain ⟨hkey, hname, hmax⟩ := lastKey?_eq_some_iff.1 hold
      refine lastKey?_eq_some_iff.2 ⟨Table.mem_keys_overlay.2 (.inl hkey), hname, ?_⟩
      intro x hx hxname
      exact (Table.mem_keys_overlay.1 hx).elim (hmax x · hxname)
        fun hx => absurd hxname (hother x hx)
  | some k' =>
    obtain ⟨hkey', hname', hmax'⟩ := lastKey?_eq_some_iff.1 hnew
    refine lastKey?_eq_some_iff.2 ⟨Table.mem_keys_overlay.2 (.inr hkey'), hname', ?_⟩
    intro x hx hxname
    rcases Table.mem_keys_overlay.1 hx with hx | hx
    · cases hold : lastKey? old key with
      | none => exact absurd hxname (lastKey?_eq_none_iff.1 hold x hx)
      | some k =>
        have hle : k ≤ k' := by
          rw [outlasts, hold, hnew] at h
          exact Std.not_lt.1 (of_decide_eq_false h)
        exact Std.le_trans ((lastKey?_eq_some_iff.1 hold).2.2 x hx hxname) hle
    · exact hmax' x hx hxname

/-- **What is published of a cluster that has been laid over another one:** the value of the added
one, unless a key of the main one outlasts all of its keys. -/
theorem get?_ofAttributes_overlay (old new : Attributes) (key : String) :
    (ofAttributes (old.overlay new)).get? key =
      if outlasts old new key then (ofAttributes old).get? key
      else ((ofAttributes old).overlay (ofAttributes new)).get? key := by
  split
  · next h =>
    obtain ⟨k, k', hold, hnew, hlt⟩ := outlasts_iff.1 h
    obtain ⟨-, hname, -⟩ := lastKey?_eq_some_iff.1 hold
    have hfresh : new.get? k = none := by
      refine Table.not_mem_keys_iff.1 fun hkey => ?_
      exact Std.not_le.2 hlt ((lastKey?_eq_some_iff.1 hnew).2.2 k hkey hname)
    rw [get?_ofAttributes, get?_ofAttributes, lastKey?_overlay_of_outlasts h, hold,
      Option.bind_some, Option.bind_some, Table.get?_overlay, hfresh, Option.none_or]
  · next h =>
    rw [get?_ofAttributes, Table.get?_overlay, get?_ofAttributes, get?_ofAttributes,
      lastKey?_overlay_of_not_outlasts (Bool.eq_false_iff.2 h)]
    cases hnew : lastKey? new key with
    | none =>
      cases hold : lastKey? old key with
      | none => rfl
      | some k =>
        obtain ⟨-, hname, -⟩ := lastKey?_eq_some_iff.1 hold
        have hfresh : new.get? k = none :=
          Table.not_mem_keys_iff.1 fun hkey => lastKey?_eq_none_iff.1 hnew k hkey hname
        simp [Table.get?_overlay, hfresh]
    | some k' =>
      obtain ⟨a, hget⟩ := Table.mem_keys_iff_exists.1 (lastKey?_eq_some_iff.1 hnew).1
      simp [Table.get?_overlay, hget]

/-- A key has a value under the key that it is published under. -/
theorem exists_get?_ofAttributes (h : k ∈ data.keys) :
    ∃ a, (ofAttributes data).get? (ofKey k) = some a := by
  cases hlast : lastKey? data (ofKey k) with
  | none => exact absurd rfl (lastKey?_eq_none_iff.1 hlast k h)
  | some k' =>
    obtain ⟨a, hget⟩ := Table.mem_keys_iff_exists.1 (lastKey?_eq_some_iff.1 hlast).1
    exact ⟨ofAttribute a, by simp [get?_ofAttributes, hlast, hget]⟩

/-- Where a key outlasts others, both have a value for it. -/
theorem exists_get?_of_outlasts (h : outlasts old new key = true) :
    (∃ a, (ofAttributes old).get? key = some a) ∧ ∃ a, (ofAttributes new).get? key = some a := by
  obtain ⟨k, k', hold, hnew, -⟩ := outlasts_iff.1 h
  obtain ⟨hkey, rfl, -⟩ := lastKey?_eq_some_iff.1 hold
  obtain ⟨hkey', hname', -⟩ := lastKey?_eq_some_iff.1 hnew
  exact ⟨exists_get?_ofAttributes hkey, hname' ▸ exists_get?_ofAttributes hkey'⟩

theorem ofAttributes_overlay_eq_iff :
    ofAttributes (old.overlay new) = (ofAttributes old).overlay (ofAttributes new) ↔
      ∀ key, outlasts old new key = true →
        (ofAttributes old).get? key = (ofAttributes new).get? key := by
  constructor
  · intro h key hlasts
    obtain ⟨-, a, hnew⟩ := exists_get?_of_outlasts hlasts
    have hkey := get?_ofAttributes_overlay old new key
    rw [h, if_pos hlasts, Table.get?_overlay, hnew, Option.some_or] at hkey
    rw [← hkey, hnew]
  · intro h
    refine Table.ext_get? fun key => ?_
    rw [get?_ofAttributes_overlay]
    split
    · next hlasts => rw [Table.get?_overlay, h key hlasts, Option.or_self]
    · rfl

/-- Policies that lay no cluster over another one treat attributes as they come. -/
theorem ofAttributes_meet {policy : Policy} (h : policy ≠ .merge) (old : Option Attributes)
    (new : Attributes) :
    ofAttributes (policy.meet old new) = policy.meet (old.map ofAttributes) (ofAttributes new) := by
  cases policy with
  | merge => exact absurd rfl h
  | override => cases old <;> rfl
  | nomerge => cases old <;> rfl

theorem get?_published_of_eq_some {a : Attribute} (h : (ofAttributes data).get? key = some a) :
    (published data).get? key = some a := by
  rw [published_eq]
  split
  · exact h
  · next hnone =>
    have hne : clusterKey ≠ key := by
      rintro rfl
      exact hnone (Table.contains_iff.2 ⟨a, h⟩)
    rw [Table.get?_insert, if_neg hne, h]

theorem get?_ofSet (set : ClusterSet) (name : String) :
    (ofSet set).get? name = (set.get? name).map ofAttributes := Table.get?_mapValues ..

/-- Sets can be folded before or after they are brought into the form of publishing if that holds
for each cluster that both have. -/
theorem ofSet_fold_eq_iff {main added : ClusterSet} {policy : Policy} :
    ofSet (main.fold added policy) = (ofSet main).fold (ofSet added) policy ↔
      ∀ name new, added.get? name = some new →
        ofAttributes (policy.meet (main.get? name) new) =
          policy.meet ((main.get? name).map ofAttributes) (ofAttributes new) := by
  have hleft (name : String) : (ofSet (main.fold added policy)).get? name =
      (added.get? name).elim ((main.get? name).map ofAttributes) fun new =>
        some (ofAttributes (policy.meet (main.get? name) new)) := by
    rw [get?_ofSet, ClusterSet.get?_fold]
    cases added.get? name <;> rfl
  have hright (name : String) : ((ofSet main).fold (ofSet added) policy).get? name =
      (added.get? name).elim ((main.get? name).map ofAttributes) fun new =>
        some (policy.meet ((main.get? name).map ofAttributes) (ofAttributes new)) := by
    rw [ClusterSet.get?_fold, get?_ofSet, get?_ofSet]
    cases added.get? name <;> rfl
  constructor
  · intro h name new hadded
    have hname := hleft name
    rw [h, hright, hadded] at hname
    exact (Option.some.inj hname).symm
  · intro h
    refine Table.ext_get? fun name => ?_
    rw [hleft, hright]
    cases hadded : added.get? name with
    | none => rfl
    | some new => exact congrArg some (h name new hadded)

/-- **Folding and publishing can change places** under every policy but `merge`. Under `merge` they
can exactly if both clusters have one value under each key for which both have keys that are
published as it, the greatest of them in the main cluster (`outlasts`). The value that is published
under a key of an added cluster is that of the added cluster, unless the main one has a key that
outlasts it: then it is that of the main cluster. -/
theorem ofSet_fold (main added : ClusterSet) (policy : Policy) :
    (ofSet (main.fold added policy) = (ofSet main).fold (ofSet added) policy ↔
      (policy = .merge → ∀ name old new key, main.get? name = some old →
        added.get? name = some new → outlasts old new key = true →
          (ofAttributes old).get? key = (ofAttributes new).get? key)) ∧
    ∀ name new k, added.get? name = some new → k ∈ new.keys →
      ∃ data, (main.fold added .merge).get? name = some data ∧
        (published data).get? (ofKey k) =
          match main.get? name with
          | none => (ofAttributes new).get? (ofKey k)
          | some old =>
            if outlasts old new (ofKey k) then (ofAttributes old).get? (ofKey k)
            else (ofAttributes new).get? (ofKey k) := by
  constructor
  · rw [ofSet_fold_eq_iff]
    constructor
    · rintro h rfl name old new key hmain hadded
      have hname := h name new hadded
      rw [hmain] at hname
      exact ofAttributes_overlay_eq_iff.1 hname key
    · intro h name new hadded
      by_cases hmerge : policy = .merge
      · subst hmerge
        cases hmain : main.get? name with
        | none => rfl
        | some old =>
          exact ofAttributes_overlay_eq_iff.2 fun key => h rfl name old new key hmain hadded
      · exact ofAttributes_meet hmerge _ _
  · intro name new k hadded hkey
    obtain ⟨a, hnew⟩ := exists_get?_ofAttributes hkey
    rw [ClusterSet.get?_fold, hadded]
    refine ⟨_, rfl, ?_⟩
    cases hmain : main.get? name with
    | none => exact (get?_published_of_eq_some hnew).trans hnew.symm
    | some old =>
      have hvalue := get?_ofAttributes_overlay old new (ofKey k)
      dsimp only [Policy.meet]
      split
      · next hlasts =>
        obtain ⟨⟨b, hold⟩, -⟩ := exists_get?_of_outlasts hlasts
        rw [if_pos hlasts, hold] at hvalue
        rw [get?_published_of_eq_some hvalue, hold]
      · next hlasts =>
        rw [if_neg hlasts, Table.get?_overlay, hnew, Option.some_or] at hvalue
        rw [get?_published_of_eq_some hvalue, hnew]

/-- A cluster with a note under a key that has a semicolon in it. -/
def oldNotes : ClusterSet := .ofList [("web", .ofList [("NOTE;TEXT", .one (.text "old"))])]

/-- The same cluster with a note under a key that has a space there. -/
def newNotes : ClusterSet := .ofList [("web", .ofList [("NOTE TEXT", .one (.text "new"))])]

/-- The semicolon comes after the space, so the old note outlasts the new one. -/
theorem ofSet_fold_notes :
    ofSet (oldNotes.fold newNotes .merge) ≠ (ofSet oldNotes).fold (ofSet newNotes) .merge ∧
      ofSet (oldNotes.fold newNotes .merge) =
        .ofList [("web", .ofList [("NOTE_TEXT", .one (.text "old"))])] ∧
      (ofSet oldNotes).fold (ofSet newNotes) .merge =
        .ofList [("web", .ofList [("NOTE_TEXT", .one (.text "new"))])] := by
  decide +kernel

end Normal
end ClusterSync
