/-
# The chunks of an expression

Packing loses nothing and changes no order: the chunks, one after the other, are the items in
byte order (`flatten_chunks`). What is packed never weighs more than the limit, but for an item
that is too heavy by itself (`fits_of_mem_pack`). Since the last item of a chunk weighs one byte
more than it is long, a chunk of several items is shorter than the limit once it is joined
(`IsChunk.size_le`).

Items that fit into one chunk all go into it (`chunks_eq_singleton`). So an expression that is
itself shorter than the limit is never cut (`length_chunks_le_one`); one that is just as long
as the limit may be, since its last item has no comma behind it and is counted as if it had.
-/

import ClusterSync.Proofs.Range.Items

namespace ClusterSync
namespace Range
namespace Expression

variable {limit used : Nat} {started chunk items : List String} {e : Expression}

/-- Does a chunk keep to a limit, or cannot be smaller? -/
def Fits (limit : Nat) (chunk : List String) : Prop :=
  weight chunk ≤ limit ∨ ∃ item, chunk = [item]

/-- An item starts a new chunk where the one that has been started has no room for it. -/
theorem isFull_iff {item : String} :
    (!started.isEmpty && used + cost item > limit) = true ↔
      started ≠ [] ∧ limit < used + cost item := by
  rw [Bool.and_eq_true, Bool.not_eq_true', List.isEmpty_eq_false_iff, decide_eq_true_iff]

theorem flatten_pack (limit : Nat) (started : List String) (used : Nat) (items : List String) :
    (pack limit started used items).flatten = started.reverse ++ items := by
  fun_induction pack limit started used items with
  | case1 started used hnil => simp [List.isEmpty_iff.1 hnil]
  | case2 started used hne => simp
  | case3 started used item rest hfull ih => simp [ih]
  | case4 started used item rest hroom ih => simp [ih]

theorem ne_nil_of_mem_pack (h : chunk ∈ pack limit started used items) : chunk ≠ [] := by
  fun_induction pack limit started used items with
  | case1 => simp at h
  | case2 started used hne =>
    rw [List.mem_singleton.1 h, ne_eq, List.reverse_eq_nil_iff]
    exact fun hnil => hne (List.isEmpty_iff.2 hnil)
  | case3 started used item rest hfull ih =>
    rcases List.mem_cons.1 h with rfl | h
    · rw [ne_eq, List.reverse_eq_nil_iff]
      exact (isFull_iff.1 hfull).1
    · exact ih h
  | case4 started used item rest hroom ih => exact ih h

/-- **No chunk weighs more than the limit, unless it is one item.** The chunk that has been
started must keep to it as well, and `used` be what it weighs. -/
theorem fits_of_mem_pack (hused : used = weight started)
    (hfits : started ≠ [] → Fits limit started.reverse)
    (h : chunk ∈ pack limit started used items) : Fits limit chunk := by
  fun_induction pack limit started used items with
  | case1 => simp at h
  | case2 started used hne =>
    rw [List.mem_singleton.1 h]
    exact hfits fun hnil => hne (List.isEmpty_iff.2 hnil)
  | case3 started used item rest hfull ih =>
    rcases List.mem_cons.1 h with rfl | h
    · exact hfits (isFull_iff.1 hfull).1
    · exact ih rfl (fun _ => .inr ⟨item, rfl⟩) h
  | case4 started used item rest hroom ih =>
    refine ih ?_ (fun _ => ?_) h
    · rw [weight_cons, hused, Nat.add_comm]
    · by_cases hnil : started = []
      · exact .inr ⟨item, by rw [hnil]; rfl⟩
      · have hle : used + cost item ≤ limit :=
          Nat.not_lt.1 fun hgt => hroom (isFull_iff.2 ⟨hnil, hgt⟩)
        refine .inl ?_
        rw [weight_perm (List.reverse_perm _), weight_cons, ← hused]
        omega

/-- What a chunk is like. -/
structure IsChunk (limit : Nat) (chunk : List String) : Prop where
  ne_nil : chunk ≠ []
  isItem : ∀ item ∈ chunk, IsItem item
  sorted : chunk.Pairwise (· ≤ ·)
  fits : Fits limit chunk

/-- **The chunks are the items in byte order**, all of them and each as often as it occurs. -/
theorem flatten_chunks (e : Expression) (limit : Nat) :
    (e.chunks limit).flatten = Text.sort e.items :=
  flatten_pack limit [] 0 _

theorem isChunk_of_mem_chunks (h : chunk ∈ e.chunks limit) : IsChunk limit chunk := by
  have hsub : chunk.Sublist (Text.sort e.items) :=
    flatten_chunks e limit ▸ List.sublist_flatten_of_mem h
  refine ⟨ne_nil_of_mem_pack h, fun item hitem => ?_, ?_, ?_⟩
  · exact isItem_of_mem_items (Text.mem_sort.1 (hsub.subset hitem))
  · exact (Text.pairwise_sort e.items).sublist hsub
  · exact fits_of_mem_pack rfl (fun hne => absurd rfl hne) h

/-- Exactly the items of an expression are in its chunks. -/
theorem exists_mem_chunks_iff {item : String} :
    (∃ chunk ∈ e.chunks limit, item ∈ chunk) ↔ item ∈ e.items := by
  rw [← Text.mem_sort, ← flatten_chunks e limit, List.mem_flatten]

/-- Asked by itself, a chunk is an expression with the items of the chunk. -/
theorem IsChunk.items_ofItems (h : IsChunk limit chunk) : (ofItems chunk).items = chunk :=
  items_ofItems_of_isItem h.isItem

/-- **A chunk is not too long once it is joined**, unless there is nothing to cut it at. -/
theorem IsChunk.size_le (h : IsChunk limit chunk) :
    Text.size (Text.join "," chunk) ≤ limit ∨ ',' ∉ (Text.join "," chunk).toList := by
  rcases h.fits with hle | ⟨item, rfl⟩
  · have hsize := size_join_eq_weight h.ne_nil
    exact .inl (by omega)
  · have hjoin : Text.join "," [item] = item := String.intercalate_singleton
    rw [hjoin]
    exact .inr (h.isItem item (List.mem_singleton_self item)).noComma

/-- What fits into the chunk that has been started goes into it. -/
theorem pack_eq_singleton (hne : started.reverse ++ items ≠ [])
    (hle : used + weight items ≤ limit) :
    pack limit started used items = [started.reverse ++ items] := by
  fun_induction pack limit started used items with
  | case1 started used hnil => simp [List.isEmpty_iff.1 hnil] at hne
  | case2 started used hstarted => rw [List.append_nil]
  | case3 started used item rest hfull ih =>
    rw [weight_cons] at hle
    have hgt := (isFull_iff.1 hfull).2
    omega
  | case4 started used item rest hroom ih =>
    rw [weight_cons] at hle
    rw [ih (by simp) (by omega), List.reverse_cons, List.append_assoc, List.singleton_append]

theorem chunks_eq_singleton (hne : e.items ≠ []) (hle : weight e.items ≤ limit) :
    e.chunks limit = [Text.sort e.items] := by
  have hperm := Text.sort_perm e.items
  refine pack_eq_singleton (fun hnil => hne ?_) ?_
  · exact List.eq_nil_iff_forall_not_mem.2 fun item hitem => by
      simpa [show Text.sort e.items = [] from hnil] using Text.mem_sort.2 hitem
  · rw [Nat.zero_add, weight_perm hperm]
    exact hle

/-- **An expression that is shorter than the limit is not cut.** -/
theorem length_chunks_le_one (h : e.size < limit) : (e.chunks limit).length ≤ 1 := by
  by_cases hnil : e.items = []
  · simp [chunks, hnil, Text.sort, pack]
  · have hweight := weight_items_le e
    rw [chunks_eq_singleton hnil (by omega)]
    exact Nat.le_refl 1

end Expression
end Range
end ClusterSync
