/-
# No cut needs fewer chunks

A cut of items puts them into groups, in their order, each of which keeps to the limit or is a
single item (`IsCut`). Packing from the left gives a cut, and there is none with fewer groups
(`chunks_fewest`).

The argument compares a chunk that has been started with any group that comes next
(`exists_pack_append`). Either all of the group goes into the started chunk, or the chunk is closed
somewhere on the way; but then what is left of the group goes into the next one, since a part of
what fits does fit. So a group closes at most one chunk, and by induction on the groups there are
no more chunks than groups (`length_pack_le`).

A larger limit allows all the cuts that a smaller one does. So it never takes more chunks.
-/

import ClusterSync.Proofs.Range.Chunks

namespace ClusterSync
namespace Range
namespace Expression

variable {limit larger : Nat} {started group items rest : List String} {item : String}
  {groups : List (List String)}

theorem Fits.mono (h : Fits limit group) (hle : limit ≤ larger) : Fits larger group := by
  rcases h with hweight | hsingle
  · exact .inl (Nat.le_trans hweight hle)
  · exact .inr hsingle

/-- An item goes into the open chunk where there is room for it. -/
theorem pack_cons_of_room (h : started = [] ∨ weight (item :: started) ≤ limit) :
    pack limit started (weight started) (item :: rest) =
      pack limit (item :: started) (weight (item :: started)) rest := by
  have hroom : ¬ ((!started.isEmpty && weight started + cost item > limit) = true) := by
    intro hfull
    obtain ⟨hne, hlt⟩ := isFull_iff.1 hfull
    rcases h with hnil | hle
    · exact hne hnil
    · rw [weight_cons] at hle
      omega
  rw [pack, if_neg hroom, weight_cons, Nat.add_comm]

/-- An item closes a chunk that has no room for it. -/
theorem pack_cons_of_full (hne : started ≠ []) (h : limit < weight (item :: started)) :
    pack limit started (weight started) (item :: rest) =
      started.reverse :: pack limit [item] (weight [item]) rest := by
  rw [weight_cons] at h
  have hfull : (!started.isEmpty && weight started + cost item > limit) = true :=
    isFull_iff.2 ⟨hne, by omega⟩
  rw [pack, if_pos hfull, weight_cons, weight_nil, Nat.add_zero]

/-- **What fits goes into the open chunk as a whole**, and what comes behind it is packed from
there. -/
theorem pack_append_of_room (h : weight started + weight group ≤ limit) :
    pack limit started (weight started) (group ++ rest) =
      pack limit (group.reverse ++ started) (weight (group.reverse ++ started)) rest := by
  induction group generalizing started with
  | nil => rfl
  | cons item group ih =>
    rw [weight_cons] at h
    have hroom : weight (item :: started) ≤ limit := by
      rw [weight_cons]
      omega
    have hrest : weight (item :: started) + weight group ≤ limit := by
      rw [weight_cons]
      omega
    rw [List.cons_append, pack_cons_of_room (.inr hroom), ih hrest, List.reverse_cons,
      List.append_assoc, List.singleton_append]

/-- So does a group that is to start a chunk. -/
theorem pack_append_of_fits (h : Fits limit group) :
    pack limit [] 0 (group ++ rest) = pack limit group.reverse (weight group.reverse) rest := by
  rcases h with hle | ⟨item, rfl⟩
  · rw [← weight_nil, pack_append_of_room (by rw [weight_nil]; omega), List.append_nil]
  · exact pack_cons_of_room (.inl rfl)

/-- **A group closes at most one chunk.** -/
theorem exists_pack_append (rest : List String) (hne : started ≠ []) (h : Fits limit group) :
    ∃ later, later ≠ [] ∧
      (pack limit started (weight started) (group ++ rest)).length ≤
        (pack limit later (weight later) rest).length + 1 := by
  induction group generalizing started with
  | nil => exact ⟨started, hne, Nat.le_succ _⟩
  | cons item group ih =>
    rcases Nat.lt_or_ge limit (weight (item :: started)) with hfull | hroom
    · -- The chunk is closed, and the next one takes the group from this item on.
      refine ⟨(item :: group).reverse, by simp, ?_⟩
      have hnext : pack limit [item] (weight [item]) (group ++ rest) =
          pack limit (item :: group).reverse (weight (item :: group).reverse) rest := by
        rw [← pack_append_of_fits h]
        exact (pack_cons_of_room (.inl rfl)).symm
      have hclosed : pack limit started (weight started) (item :: group ++ rest) =
          started.reverse ::
            pack limit (item :: group).reverse (weight (item :: group).reverse) rest := by
        rw [List.cons_append, pack_cons_of_full hne hfull, hnext]
      exact Nat.le_of_eq (congrArg List.length hclosed)
    · rw [List.cons_append, pack_cons_of_room (.inr hroom)]
      refine ih (List.cons_ne_nil item started) ?_
      rcases h with hle | ⟨single, heq⟩
      · rw [weight_cons] at hle
        exact .inl (by omega)
      · rw [(List.cons.inj heq).2]
        exact .inl (Nat.zero_le limit)

/-- From a chunk that has been started, packing groups makes at most one chunk more than there are
groups. -/
theorem length_pack_le_succ (hne : started ≠ []) (h : ∀ group ∈ groups, Fits limit group) :
    (pack limit started (weight started) groups.flatten).length ≤ groups.length + 1 := by
  induction groups generalizing started with
  | nil =>
    rw [List.flatten_nil, pack, if_neg (by simpa using hne), List.length_singleton]
    exact Nat.le_refl 1
  | cons group groups ih =>
    obtain ⟨later, hlater, hle⟩ :=
      exists_pack_append groups.flatten hne (h group (List.mem_cons_self ..))
    have hrest := ih hlater fun g hg => h g (List.mem_cons_of_mem group hg)
    rw [List.flatten_cons, List.length_cons]
    omega

/-- How items may be cut: into groups that are not empty and keep to the limit. -/
structure IsCut (limit : Nat) (items : List String) (groups : List (List String)) : Prop where
  flatten : groups.flatten = items
  ne_nil : ∀ group ∈ groups, group ≠ []
  fits : ∀ group ∈ groups, Fits limit group

theorem IsCut.mono (h : IsCut limit items groups) (hle : limit ≤ larger) :
    IsCut larger items groups :=
  ⟨h.flatten, h.ne_nil, fun group hgroup => (h.fits group hgroup).mono hle⟩

/-- **Packing from the left makes no more chunks than there are groups in any cut.** -/
theorem IsCut.length_pack_le (h : IsCut limit items groups) :
    (pack limit [] 0 items).length ≤ groups.length := by
  obtain ⟨rfl, hne, hfits⟩ := h
  cases groups with
  | nil => exact Nat.le_refl 0
  | cons group groups =>
    have hstarted : group.reverse ≠ [] := by
      rw [ne_eq, List.reverse_eq_nil_iff]
      exact hne group (List.mem_cons_self ..)
    rw [List.flatten_cons, pack_append_of_fits (hfits group (List.mem_cons_self ..)),
      List.length_cons]
    exact length_pack_le_succ hstarted fun g hg => hfits g (List.mem_cons_of_mem group hg)

theorem isCut_chunks (e : Expression) (limit : Nat) :
    IsCut limit (Text.sort e.items) (e.chunks limit) where
  flatten := flatten_chunks e limit
  ne_nil _ h := (isChunk_of_mem_chunks h).ne_nil
  fits _ h := (isChunk_of_mem_chunks h).fits

/-- **An expression is cut into as few chunks as can be.** Its chunks are a cut of the items in
byte order, no other cut has fewer groups, and a larger limit never takes more of them. -/
theorem chunks_fewest (e : Expression) (limit : Nat) :
    IsCut limit (Text.sort e.items) (e.chunks limit) ∧
    (∀ groups, IsCut limit (Text.sort e.items) groups →
      (e.chunks limit).length ≤ groups.length) ∧
    ∀ larger, limit ≤ larger → (e.chunks larger).length ≤ (e.chunks limit).length := by
  refine ⟨isCut_chunks e limit, ?_, ?_⟩
  · intro groups hcut
    exact hcut.length_pack_le
  · intro larger hle
    exact ((isCut_chunks e limit).mono hle).length_pack_le

end Expression
end Range
end ClusterSync
