/-
# Cutting loses nothing and keeps to its budget

The chunks of an expression are known by four things: none is empty, one after the other they are
the items in byte order, each weighs no more than the limit or is a single item that is too heavy,
and they are packed from the left. So they depend on nothing but which items there are, and how
often each (`chunks_congr`): neither on the order of the items nor on empty ones between them, and
what has been cut can be joined and cut again (`chunks_ofItems_flatten`).

Packing counts no further than one more than the length of the expression
(`chunksUpTo?_eq_some`), whatever the limit. Numbers that can hold that length and one more are
therefore large enough for it.
-/

import ClusterSync.Proofs.Range.Chunks
import ClusterSync.Proofs.Text.ByteOrder

namespace ClusterSync
namespace Range
namespace Expression

variable {limit capacity used : Nat} {started chunk items : List String} {e other : Expression}

/-- A chunk keeps to the limit, and is then shorter than it once it is joined; or it is one item
that does not fit in any chunk. -/
theorem IsChunk.budget (h : IsChunk limit chunk) :
    weight chunk ≤ limit ∧ Text.size (Text.join "," chunk) < limit ∨
      ∃ item, chunk = [item] ∧ limit < cost item := by
  have hsize := size_join_eq_weight h.ne_nil
  rcases Nat.lt_or_ge limit (weight chunk) with hheavy | hle
  · rcases h.fits with hle | ⟨item, rfl⟩
    · omega
    · exact .inr ⟨item, rfl, hheavy⟩
  · exact .inl ⟨hle, by omega⟩

/-- Only which items there are matters, and how often each. -/
theorem chunks_congr (h : other.items.Perm e.items) : other.chunks limit = e.chunks limit := by
  have hsort : Text.sort other.items = Text.sort e.items := by
    have hperm := (Text.sort_perm other.items).trans (h.trans (Text.sort_perm e.items).symm)
    exact hperm.eq_of_pairwise (fun a b _ _ hab hba => Std.le_antisymm hab hba)
      (Text.pairwise_sort _) (Text.pairwise_sort _)
  rw [chunks, hsort, chunks]

/-- What has been cut, joined and cut again gives the same chunks. -/
theorem chunks_ofItems_flatten (e : Expression) (limit : Nat) :
    (ofItems (e.chunks limit).flatten).chunks limit = e.chunks limit := by
  have hitems : ∀ item ∈ (e.chunks limit).flatten, IsItem item := by
    intro item hitem
    rw [flatten_chunks, Text.mem_sort] at hitem
    exact isItem_of_mem_items hitem
  refine chunks_congr ?_
  rw [items_ofItems_of_isItem hitems, flatten_chunks]
  exact Text.sort_perm e.items

/-- Packing with numbers that go up to a capacity: nothing if a sum would be larger. -/
def packUpTo? (capacity limit : Nat) (chunk : List String) (used : Nat) :
    List String → Option (List (List String))
  | [] => if chunk.isEmpty then some [] else some [chunk.reverse]
  | item :: rest =>
    if capacity < used + cost item then none
    else if !chunk.isEmpty && used + cost item > limit then
      (packUpTo? capacity limit [item] (cost item) rest).map (chunk.reverse :: ·)
    else
      packUpTo? capacity limit (item :: chunk) (used + cost item) rest

/-- The chunks of an expression, counted with such numbers. -/
def chunksUpTo? (e : Expression) (capacity limit : Nat) : Option (List (List String)) :=
  packUpTo? capacity limit [] 0 (Text.sort e.items)

/-- No sum is larger than what has been packed into the open chunk and what is left weigh. -/
theorem packUpTo?_eq_some (h : used + weight items ≤ capacity) :
    packUpTo? capacity limit started used items = some (pack limit started used items) := by
  fun_induction pack limit started used items with
  | case1 started used hnil => rw [packUpTo?, if_pos hnil]
  | case2 started used hne => rw [packUpTo?, if_neg hne]
  | case3 started used item rest hfull ih =>
    rw [weight_cons] at h
    rw [packUpTo?, if_neg (by omega), if_pos hfull, ih (by omega), Option.map_some]
  | case4 started used item rest hroom ih =>
    rw [weight_cons] at h
    rw [packUpTo?, if_neg (by omega), if_neg hroom, ih (by omega)]

/-- **Counting to one more than the length of the expression is enough.** -/
theorem chunksUpTo?_eq_some (e : Expression) (limit : Nat) :
    e.chunksUpTo? (e.size + 1) limit = some (e.chunks limit) := by
  have hweight : weight (Text.sort e.items) ≤ e.size + 1 := by
    rw [weight_perm (Text.sort_perm e.items)]
    exact weight_items_le e
  exact packUpTo?_eq_some (by omega)

/-- **Cutting loses nothing and keeps to its budget.** No chunk is empty, and one after the other
the chunks are all items of the expression, in byte order and each as often as it occurs. A chunk
weighs no more than the limit and is shorter than it once it is joined, or it is one item that is
too heavy by itself. The chunks depend on the items alone, cutting what has been cut changes
nothing, and no sum on the way is larger than one more than the length of the expression. -/
theorem chunks_partition (e : Expression) (limit : Nat) :
    (∀ chunk ∈ e.chunks limit, chunk ≠ [] ∧
      (weight chunk ≤ limit ∧ Text.size (Text.join "," chunk) < limit ∨
        ∃ item, chunk = [item] ∧ limit < cost item)) ∧
    (e.chunks limit).flatten.Perm e.items ∧
    (e.chunks limit).flatten.Pairwise (fun a b => Text.bytes a ≤ Text.bytes b) ∧
    (∀ other : Expression, other.items.Perm e.items → other.chunks limit = e.chunks limit) ∧
    (ofItems (e.chunks limit).flatten).chunks limit = e.chunks limit ∧
    e.chunksUpTo? (e.size + 1) limit = some (e.chunks limit) := by
  refine ⟨fun chunk hchunk => ?_, ?_, ?_, ?_, ?_, ?_⟩
  · have h := isChunk_of_mem_chunks hchunk
    exact ⟨h.ne_nil, h.budget⟩
  · rw [flatten_chunks]
    exact Text.sort_perm e.items
  · rw [flatten_chunks]
    exact (Text.pairwise_sort e.items).imp Text.le_iff_bytes.1
  · intro other h
    exact chunks_congr h
  · exact chunks_ofItems_flatten e limit
  · exact chunksUpTo?_eq_some e limit

end Expression
end Range
end ClusterSync
