/-
# Tables seen through their entries

A table is known by its look-ups. Here the other view of it, the list of its entries, is
tied to them: an entry is listed where the look-up gives it (`mem_entries_iff`), and no key
is listed twice (`nodup_keys`). A table made of a list without repeated keys has the entries of
the list (`get?_ofList`), so a table is the one made of its entries (`ofList_entries`). Where a
list repeats a key the last entry counts (`get?_ofList_last`).
-/

import ClusterSync.Table

namespace ClusterSync
namespace Table

universe u v

variable {κ : Type u} {α : Type v} [LT κ]

theorem contains_iff [DecidableEq κ] {t : Table κ α} {k : κ} :
    t.contains k = true ↔ ∃ v, t.get? k = some v := by
  rw [contains, Option.isSome_iff_exists]

theorem mem_keys_iff_exists [DecidableEq κ] {t : Table κ α} {k : κ} :
    k ∈ t.keys ↔ ∃ v, t.get? k = some v := by
  rw [mem_keys_iff, Option.isSome_iff_exists]

theorem not_mem_keys_iff [DecidableEq κ] {t : Table κ α} {k : κ} :
    k ∉ t.keys ↔ t.get? k = none := by
  rw [mem_keys_iff, Option.not_isSome_iff_eq_none]

theorem sorted_keys (t : Table κ α) : t.keys.Pairwise (· < ·) := List.pairwise_map.2 t.sorted

variable [LE κ] [Std.LawfulOrderLT κ]

theorem mem_entries_iff [DecidableEq κ] {t : Table κ α} {k : κ} {v : α} :
    (k, v) ∈ t.entries ↔ t.get? k = some v := by
  refine ⟨fun h => ?_, mem_of_lookup⟩
  obtain ⟨es, hes⟩ := t
  simp only [get?] at h ⊢
  induction es with
  | nil => exact absurd h List.not_mem_nil
  | cons e es ih =>
    obtain ⟨he, hes⟩ := List.pairwise_cons.1 hes
    rcases List.mem_cons.1 h with rfl | h
    · rw [lookup, if_pos rfl]
    · have hlt : e.1 < k := he (k, v) h
      have hne : e.1 ≠ k := fun heq => Std.Irrefl.irrefl k (heq ▸ hlt)
      rw [lookup, if_neg hne]
      exact ih hes h

theorem nodup_keys (t : Table κ α) : t.keys.Nodup := by
  refine t.sorted_keys.imp fun {a b} hlt heq => ?_
  rw [heq] at hlt
  exact Std.Irrefl.irrefl _ hlt

/-- Taking out what is not there changes nothing. -/
theorem erase_of_get?_eq_none [DecidableEq κ] [Std.IsLinearOrder κ] {t : Table κ α} {k : κ}
    (h : t.get? k = none) : t.erase k = t := by
  refine ext_get? fun k' => ?_
  rw [get?_erase]
  split
  · next heq => rw [heq, h]
  · rfl

variable [DecidableLT κ] [Std.IsLinearOrder κ]

theorem get?_overlayList_of_forall_ne [DecidableEq κ] {t : Table κ α} {es : List (κ × α)} {k : κ}
    (h : ∀ e ∈ es, e.1 ≠ k) : (t.overlayList es).get? k = t.get? k := by
  induction es generalizing t with
  | nil => rfl
  | cons e es ih =>
    have hrest := ih (t := t.insert e.1 e.2) fun x hx => h x (List.mem_cons_of_mem _ hx)
    exact hrest.trans ((get?_insert ..).trans (if_neg (h e (List.mem_cons_self ..))))

theorem get?_overlayList_of_mem [DecidableEq κ] {t : Table κ α} {es : List (κ × α)} {k : κ}
    {v : α} (hnd : (es.map (·.1)).Nodup) (h : (k, v) ∈ es) :
    (t.overlayList es).get? k = some v := by
  induction es generalizing t with
  | nil => exact absurd h List.not_mem_nil
  | cons e es ih =>
    obtain ⟨hfresh, hnd⟩ := List.nodup_cons.1 hnd
    change ((t.insert e.1 e.2).overlayList es).get? k = _
    rcases List.mem_cons.1 h with rfl | h
    · have hlater : ∀ x ∈ es, x.1 ≠ k := fun x hx heq => hfresh (List.mem_map.2 ⟨x, hx, heq⟩)
      rw [get?_overlayList_of_forall_ne hlater, get?_insert, if_pos rfl]
    · exact ih hnd h

/-- **A list without repeated keys makes the table of its entries.** -/
theorem get?_ofList [DecidableEq κ] {es : List (κ × α)} (hnd : (es.map (·.1)).Nodup) {k : κ}
    {v : α} : (ofList es).get? k = some v ↔ (k, v) ∈ es := by
  refine ⟨fun h => ?_, get?_overlayList_of_mem hnd⟩
  by_cases hkey : ∃ e ∈ es, e.1 = k
  · obtain ⟨⟨_, value⟩, he, rfl⟩ := hkey
    have hvalue : (ofList es).get? _ = some value := get?_overlayList_of_mem hnd he
    rwa [Option.some.inj (h.symm.trans hvalue)]
  · have hnone : (ofList es).get? k = none :=
      get?_overlayList_of_forall_ne fun e he heq => hkey ⟨e, he, heq⟩
    rw [hnone] at h
    cases h

/-- Of the entries at one key the last one counts. -/
theorem get?_ofList_last [DecidableEq κ] {before after : List (κ × α)} {k : κ} {v : α}
    (h : ∀ e ∈ after, e.1 ≠ k) : (ofList (before ++ (k, v) :: after)).get? k = some v := by
  have hsplit : ofList (before ++ (k, v) :: after) =
      ((ofList before).insert k v).overlayList after := by
    simp [ofList, overlayList, List.foldl_append]
  rw [hsplit, get?_overlayList_of_forall_ne h, get?_insert, if_pos rfl]

/-- What has been put in is there, with one value or another. -/
theorem exists_get?_ofList [DecidableEq κ] {es : List (κ × α)} {k : κ}
    (h : ∃ e ∈ es, e.1 = k) : ∃ v, (ofList es).get? k = some v := by
  suffices hall : ∀ t : Table κ α, ((∃ v, t.get? k = some v) ∨ ∃ e ∈ es, e.1 = k) →
      ∃ v, (t.overlayList es).get? k = some v from hall empty (.inr h)
  clear h
  induction es with
  | nil => exact fun t ht => ht.resolve_right (by simp)
  | cons e es ih =>
    intro t ht
    refine ih (t.insert e.1 e.2) ?_
    rw [get?_insert]
    by_cases hkey : e.1 = k
    · exact .inl ⟨e.2, if_pos hkey⟩
    · rw [if_neg hkey]
      refine ht.imp_right ?_
      rintro ⟨x, hx, hxk⟩
      exact ⟨x, (List.mem_cons.1 hx).resolve_left fun heq => hkey (heq ▸ hxk), hxk⟩

theorem mem_keys_overlay [DecidableEq κ] {s t : Table κ α} {k : κ} :
    k ∈ (s.overlay t).keys ↔ k ∈ s.keys ∨ k ∈ t.keys := by
  rw [mem_keys_iff, mem_keys_iff, mem_keys_iff, get?_overlay, Option.isSome_or, Bool.or_eq_true,
    or_comm]

/-- It does not matter which of three tables are laid over one another first. -/
theorem overlay_assoc [DecidableEq κ] (s t u : Table κ α) :
    (s.overlay t).overlay u = s.overlay (t.overlay u) := by
  refine ext_get? fun k => ?_
  rw [get?_overlay, get?_overlay, get?_overlay, get?_overlay, Option.or_assoc]

/-- A table made of a list has entries of the list only. -/
theorem mem_of_mem_ofList {es : List (κ × α)} {e : κ × α} (h : e ∈ (ofList es).entries) :
    e ∈ es := by
  suffices hall : ∀ t : Table κ α, e ∈ (t.overlayList es).entries → e ∈ t.entries ∨ e ∈ es from
    (hall empty h).resolve_left List.not_mem_nil
  clear h
  induction es with
  | nil => exact fun t ht => .inl ht
  | cons x es ih =>
    intro t ht
    rcases ih (t.insert x.1 x.2) ht with hinsert | hes
    · rcases mem_insertEntry hinsert with rfl | hold
      · exact .inr (List.mem_cons_self ..)
      · exact .inl hold
    · exact .inr (List.mem_cons_of_mem _ hes)

/-- Putting something in is undone by taking it out. -/
theorem erase_insert_self [DecidableEq κ] (t : Table κ α) (k : κ) (v : α) :
    (t.insert k v).erase k = t.erase k := by
  refine ext_get? fun k' => ?_
  rw [get?_erase, get?_erase, get?_insert]
  split
  · rfl
  · next hne => rw [if_neg (Ne.symm hne)]

/-- A table is made of its own entries. -/
theorem ofList_entries [DecidableEq κ] (t : Table κ α) : ofList t.entries = t := by
  refine ext_get? fun k => Option.ext fun v => ?_
  rw [get?_ofList t.nodup_keys, mem_entries_iff]

end Table
end ClusterSync
