/-
# Repetitions that a collapse leaves

Over a server that drops repetitions a collapse ends with items that are in order and of which no
chunk has one twice (`exists_collapse_dedupes`). An item can still be there twice: as the last of
one chunk and the first of the next. The server is never asked about the two together, and no pass
moves the boundary between them.

So the items at such a seam are exactly the repetitions (`IsThin.count_eq`). If any two items fit
into one chunk, there is no third one (`AreStrict.nodup_seams`): a chunk that begins and ends with
an item holds nothing else, and has room for it once more.

`collapse_repeats` says how often each item of the expression is in the result, and that none is
there twice if the different items and one of them again fit into one chunk. That a limit may also
be too small, although any two items fit into a chunk, shows `collapse_keeps_repeat`.
-/

import ClusterSync.Proofs.Range.Thinning

namespace ClusterSync
namespace Range

open Expression

variable {answer : Query → Except QueryError Reply} {limits : Limits} {limit used : Nat}
  {e : Expression} {a b started items kept rest : List String} {chunks : List (List String)}
  {x y : String} {asked : List Query}

/-! ### Chunks side by side -/

/-- Has a chunk no room for the first item of another one? -/
def HasNoRoomFor (limit : Nat) (a b : List String) : Prop :=
  ∀ item ∈ b.head?, limit < weight a + cost item

/-- Packing begins with what is in the open chunk. -/
theorem exists_pack_eq_cons (limit used : Nat) (items : List String) (hne : started ≠ []) :
    ∃ first others, pack limit started used items = first :: others ∧
      first.head? = started.reverse.head? := by
  fun_induction pack limit started used items with
  | case1 started used hnil => exact absurd (List.isEmpty_iff.1 hnil) hne
  | case2 started used _ => exact ⟨started.reverse, [], rfl, rfl⟩
  | case3 started used item rest hfull ih => exact ⟨started.reverse, _, rfl, rfl⟩
  | case4 started used item rest hroom ih =>
    obtain ⟨first, others, hpack, hhead⟩ := ih (List.cons_ne_nil item started)
    refine ⟨first, others, hpack, ?_⟩
    rw [hhead, List.reverse_cons, List.head?_append_of_ne_nil]
    rwa [ne_eq, List.reverse_eq_nil_iff]

/-- **A chunk is closed only where it has no room for the next item.** -/
theorem isChain_pack (hused : used = weight started) :
    (pack limit started used items).IsChain (HasNoRoomFor limit) := by
  fun_induction pack limit started used items with
  | case1 => exact .nil
  | case2 => exact .singleton _
  | case3 started used item rest hfull ih =>
    have hrest := ih rfl
    obtain ⟨first, others, hpack, hhead⟩ :=
      exists_pack_eq_cons limit (cost item) rest (List.cons_ne_nil item [])
    rw [hpack] at hrest ⊢
    refine .cons_cons (fun next hnext => ?_) hrest
    obtain rfl : item = next := by simpa [hhead] using hnext
    rw [weight_perm (List.reverse_perm started), ← hused]
    exact (isFull_iff.1 hfull).2
  | case4 started used item rest hroom ih =>
    exact ih (by rw [weight_cons, hused, Nat.add_comm])

theorem isChain_chunks (e : Expression) (limit : Nat) :
    (e.chunks limit).IsChain (HasNoRoomFor limit) := isChain_pack rfl

/-- The items at the seams of chunks: the last of one chunk where it is the first of the next as
well. -/
def seams : List (List String) → List String
  | a :: b :: rest =>
    if a.getLast? = b.head? then a.getLast?.toList ++ seams (b :: rest) else seams (b :: rest)
  | _ => []

/-- In a sorted list only the two items at a boundary can be the same on both sides. -/
theorem seam_of_mem (hsorted : (a ++ b ++ rest).Pairwise (· ≤ ·)) (hb : b ≠ []) (ha : x ∈ a)
    (hx : x ∈ b ++ rest) : a.getLast? = some x ∧ b.head? = some x := by
  rw [List.append_assoc, List.pairwise_append] at hsorted
  obtain ⟨hleft, hright, hacross⟩ := hsorted
  constructor
  · obtain rfl | ⟨before, y, rfl⟩ := List.eq_nil_or_concat a
    · exact absurd ha List.not_mem_nil
    · rw [List.concat_eq_append] at *
      have hyx : y ≤ x := hacross y (by simp) x hx
      have hxy : x ≤ y := by
        rcases List.mem_append.1 ha with hbefore | hlast
        · exact (List.pairwise_append.1 hleft).2.2 x hbefore y (List.mem_singleton_self y)
        · exact Std.le_of_eq (List.mem_singleton.1 hlast)
      rw [List.getLast?_concat, Std.le_antisymm hyx hxy]
  · cases b with
    | nil => exact absurd rfl hb
    | cons y others =>
      have hxy : x ≤ y := hacross x ha y (by simp)
      have hyx : y ≤ x := by
        rcases List.mem_cons.1 hx with rfl | hrest
        · exact Std.le_refl x
        · exact (List.pairwise_cons.1 hright).1 x hrest
      rw [List.head?_cons, Std.le_antisymm hyx hxy]

/-- Chunks that are in order and have no repetition inside. -/
structure AreStrict (chunks : List (List String)) : Prop where
  sorted : chunks.flatten.Pairwise (· ≤ ·)
  ne_nil : ∀ chunk ∈ chunks, chunk ≠ []
  strict : ∀ chunk ∈ chunks, chunk.Pairwise (· < ·)

theorem AreStrict.tail (h : AreStrict (a :: chunks)) : AreStrict chunks where
  sorted := (List.pairwise_append.1 (List.flatten_cons ▸ h.sorted)).2.1
  ne_nil chunk hchunk := h.ne_nil chunk (List.mem_cons_of_mem a hchunk)
  strict chunk hchunk := h.strict chunk (List.mem_cons_of_mem a hchunk)

theorem AreStrict.nodup_head (h : AreStrict (a :: chunks)) : a.Nodup :=
  (h.strict a (List.mem_cons_self ..)).imp Std.ne_of_lt

/-- What is in one chunk and in a later one stands at the seam of the first of them. -/
theorem AreStrict.seam (h : AreStrict (a :: b :: chunks)) (ha : x ∈ a)
    (hx : x ∈ (b :: chunks).flatten) : a.getLast? = some x ∧ b.head? = some x := by
  have hsorted := h.sorted
  rw [List.flatten_cons, List.flatten_cons, ← List.append_assoc] at hsorted
  rw [List.flatten_cons] at hx
  exact seam_of_mem hsorted (h.ne_nil b (by simp)) ha hx

/-- An item that is not on both sides does not stand at a seam. -/
theorem count_seams_cons (h : ¬ (x ∈ a ∧ x ∈ (b :: chunks).flatten)) :
    (seams (a :: b :: chunks)).count x = (seams (b :: chunks)).count x := by
  rw [seams]
  split
  · next hseam =>
    have hnone : x ∉ a.getLast?.toList := by
      intro hmem
      have hlast : a.getLast? = some x := Option.mem_toList.1 hmem
      have hhead : x ∈ b := List.mem_of_mem_head? (hseam ▸ hlast)
      exact h ⟨List.mem_of_mem_getLast? hlast, List.mem_append_left _ hhead⟩
    rw [List.count_append, List.count_eq_zero.2 hnone, Nat.zero_add]
  · rfl

/-- **An item is there once, and once more for every seam at which it stands.** -/
theorem AreStrict.count_flatten (h : AreStrict chunks) (x : String) :
    chunks.flatten.count x =
      (if x ∈ chunks.flatten then 1 else 0) + (seams chunks).count x := by
  induction chunks with
  | nil => rfl
  | cons a chunks ih =>
    have hrest := ih h.tail
    have ha : a.count x = if x ∈ a then 1 else 0 := h.nodup_head.count
    cases chunks with
    | nil =>
      have hnone : seams [a] = [] := by simp [seams]
      rw [List.flatten_singleton, ha, hnone, List.count_nil, Nat.add_zero]
    | cons b chunks =>
      rw [List.flatten_cons, List.count_append, ha, hrest]
      simp only [List.mem_append]
      by_cases hboth : x ∈ a ∧ x ∈ (b :: chunks).flatten
      · obtain ⟨hlast, hhead⟩ := h.seam hboth.1 hboth.2
        rw [if_pos hboth.1, if_pos hboth.2, if_pos (.inl hboth.1), seams, hlast, hhead, if_pos rfl,
          Option.toList_some, List.singleton_append, List.count_cons_self]
        omega
      · rw [count_seams_cons hboth]
        by_cases hxa : x ∈ a
        · rw [if_pos hxa, if_neg fun hx => hboth ⟨hxa, hx⟩, if_pos (.inl hxa), Nat.zero_add]
        · simp only [hxa, if_false, false_or, Nat.zero_add]

/-- A chunk that begins and ends with the same item holds nothing else. -/
theorem eq_singleton_of_strict (hstrict : a.Pairwise (· < ·)) (hhead : a.head? = some x)
    (hlast : a.getLast? = some x) : a = [x] := by
  cases a with
  | nil => cases hhead
  | cons y rest =>
    obtain rfl : y = x := Option.some.inj hhead
    cases rest with
    | nil => rfl
    | cons z rest =>
      rw [List.getLast?_cons_cons] at hlast
      have hlt : y < y := (List.pairwise_cons.1 hstrict).1 y (List.mem_of_mem_getLast? hlast)
      exact absurd hlt (Std.Irrefl.irrefl y)

/-- **No item stands at two seams**, if there is room in a chunk for any item twice that is there
twice. Between two seams there would be a chunk with this item alone, closed before the item
again. -/
theorem AreStrict.nodup_seams (h : AreStrict chunks) (hchain : chunks.IsChain (HasNoRoomFor limit))
    (hroom : ∀ x, 2 ≤ chunks.flatten.count x → cost x + cost x ≤ limit) :
    (seams chunks).Nodup := by
  induction chunks with
  | nil => exact .nil
  | cons a chunks ih =>
    cases chunks with
    | nil => simp [seams]
    | cons b chunks =>
      have hcount : ∀ x, (b :: chunks).flatten.count x ≤ (a :: b :: chunks).flatten.count x := by
        intro x
        rw [List.flatten_cons (l := a), List.count_append]
        omega
      have hrest : (seams (b :: chunks)).Nodup :=
        ih h.tail hchain.tail fun x hx => hroom x (Nat.le_trans hx (hcount x))
      rw [seams]
      split
      · next hseam =>
        cases hlast : a.getLast? with
        | none => exact hrest
        | some y =>
          rw [Option.toList_some, List.singleton_append, List.nodup_cons]
          refine ⟨fun hy => ?_, hrest⟩
          have hhead : b.head? = some y := hseam.symm.trans hlast
          have htwice : 2 ≤ (b :: chunks).flatten.count y := by
            have hformula := h.tail.count_flatten y
            have hpos : 0 < (seams (b :: chunks)).count y := List.count_pos_iff.2 hy
            have hmem : y ∈ (b :: chunks).flatten :=
              List.mem_append_left _ (List.mem_of_mem_head? hhead)
            rw [if_pos hmem] at hformula
            omega
          have honce : b.count y ≤ 1 := List.nodup_iff_count_le_one.1 h.tail.nodup_head y
          have hlater : y ∈ chunks.flatten := by
            rw [List.flatten_cons, List.count_append] at htwice
            exact List.count_pos_iff.1 (by omega)
          cases chunks with
          | nil => exact absurd hlater List.not_mem_nil
          | cons c chunks =>
            obtain ⟨hend, hnext⟩ := h.tail.seam (List.mem_of_mem_head? hhead) hlater
            obtain rfl : b = [y] :=
              eq_singleton_of_strict (h.tail.strict b (List.mem_cons_self ..)) hhead hend
            have hfull := (List.isChain_cons_cons.1 hchain.tail).1 y hnext
            have hfits := hroom y (Nat.le_trans htwice (hcount y))
            rw [weight_cons, weight_nil] at hfull
            omega
      · exact hrest

/-! ### What a collapse comes to -/

theorem IsThin.flatten_chunks (h : IsThin limit e kept) :
    ((ofItems kept).chunks limit).flatten = kept := by
  rw [Expression.flatten_chunks, h.ordered.sort_eq]

theorem IsThin.areStrict (h : IsThin limit e kept) :
    AreStrict ((ofItems kept).chunks limit) where
  sorted := h.flatten_chunks.symm ▸ h.ordered.sorted
  ne_nil _ hchunk := (isChunk_of_mem_chunks hchunk).ne_nil
  strict := h.strict

/-- The items that a result has twice. -/
def seamsOf (limit : Nat) (kept : List String) : List String :=
  seams ((ofItems kept).chunks limit)

theorem IsThin.count_eq (h : IsThin limit e kept) (hx : x ∈ kept) :
    kept.count x = 1 + (seamsOf limit kept).count x := by
  have hcount := h.areStrict.count_flatten x
  rwa [h.flatten_chunks, if_pos hx] at hcount

/-- An item at a seam closes a chunk that has no room for it. -/
theorem exists_chunk_of_mem_seams (hchain : chunks.IsChain (HasNoRoomFor limit))
    (h : x ∈ seams chunks) : ∃ a ∈ chunks, x ∈ a ∧ limit < weight a + cost x := by
  induction chunks with
  | nil => exact absurd h List.not_mem_nil
  | cons a chunks ih =>
    cases chunks with
    | nil => simp [seams] at h
    | cons b chunks =>
      obtain ⟨hfull, hrest⟩ := List.isChain_cons_cons.1 hchain
      have hlater : x ∈ seams (b :: chunks) →
          ∃ a' ∈ a :: b :: chunks, x ∈ a' ∧ limit < weight a' + cost x := by
        intro hx
        obtain ⟨a', hmem, ha'⟩ := ih hrest hx
        exact ⟨a', List.mem_cons_of_mem a hmem, ha'⟩
      rw [seams] at h
      split at h
      · next hseam =>
        rcases List.mem_append.1 h with hx | hx
        · have hlast : a.getLast? = some x := Option.mem_toList.1 hx
          exact ⟨a, List.mem_cons_self .., List.mem_of_mem_getLast? hlast,
            hfull x (hseam ▸ hlast)⟩
        · exact hlater hx
      · exact hlater h

/-- No item is twice in a result that no chunk was too small for. -/
theorem IsThin.seamsOf_eq_nil (h : IsThin limit e kept)
    (hroom : ∀ x ∈ e.items, weight (Text.sortUnique e.items) + cost x ≤ limit) :
    seamsOf limit kept = [] := by
  refine List.eq_nil_iff_forall_not_mem.2 fun x hx => ?_
  obtain ⟨a, hmem, hxa, hfull⟩ := exists_chunk_of_mem_seams (isChain_chunks _ limit) hx
  have hsub : a.Sublist kept := by
    rw [← h.flatten_chunks]
    exact List.sublist_flatten_of_mem hmem
  have hitem : ∀ y ∈ a, y ∈ e.items := fun y hy => (h.mem_iff y).1 (hsub.subset hy)
  have hle : weight a ≤ weight (Text.sortUnique e.items) := by
    have hnodup : a.Nodup := (h.strict a hmem).imp Std.ne_of_lt
    have hsubset : a ⊆ Text.sortUnique e.items := fun y hy => Text.mem_sortUnique.2 (hitem y hy)
    obtain ⟨part, hperm, hpart⟩ := List.subperm_of_subset hnodup hsubset
    rw [← weight_perm hperm]
    exact weight_le_of_sublist hpart
  have hfits := hroom x (hitem x hxa)
  omega

/-- A result without seams has every item once. -/
theorem IsThin.eq_sortUnique_iff (h : IsThin limit e kept) :
    kept = Text.sortUnique e.items ↔ seamsOf limit kept = [] := by
  constructor
  · intro heq
    have hnodup : kept.Nodup := by
      rw [heq]
      exact (Text.pairwise_sortUnique e.items).imp Std.ne_of_lt
    refine List.eq_nil_iff_forall_not_mem.2 fun x hx => ?_
    obtain ⟨a, hmem, hxa, -⟩ := exists_chunk_of_mem_seams (isChain_chunks _ limit) hx
    have hkept : x ∈ kept := h.flatten_chunks ▸ List.mem_flatten_of_mem hmem hxa
    have hcount := h.count_eq hkept
    have honce := List.nodup_iff_count_le_one.1 hnodup x
    have hpos : 0 < (seamsOf limit kept).count x := List.count_pos_iff.2 hx
    omega
  · intro hnone
    have hnodup : kept.Nodup := by
      rw [List.nodup_iff_count_le_one]
      intro x
      by_cases hx : x ∈ kept
      · rw [h.count_eq hx, hnone]
        exact Nat.le_refl 1
      · rw [List.count_eq_zero.2 hx]
        exact Nat.zero_le 1
    have hstrict : kept.Pairwise (· < ·) :=
      (h.ordered.sorted.and hnodup).imp fun ⟨hle, hne⟩ => Std.lt_of_le_of_ne hle hne
    refine Text.eq_of_pairwise_lt hstrict (Text.pairwise_sortUnique e.items) fun x => ?_
    rw [h.mem_iff, Text.mem_sortUnique]

/-- Where any two items fit into one chunk, so does an item twice that is there twice. -/
theorem IsThin.room_twice (h : IsThin limit e kept)
    (fits : e.items.Pairwise fun a b => cost a + cost b ≤ limit) (hx : 2 ≤ kept.count x) :
    cost x + cost x ≤ limit := by
  have hall : (Text.sort e.items).Pairwise fun a b => cost a + cost b ≤ limit :=
    ((Text.sort_perm e.items).symm.pairwise_iff fun hab => by omega).1 fits
  have hpair : [x, x].Sublist kept := List.replicate_sublist_iff.2 hx
  exact List.rel_of_pairwise_cons (hall.sublist (hpair.trans h.sublist)) (List.mem_singleton_self x)

/-- **What a collapse leaves of repetitions.** Over a server that puts items in order and drops
repetitions, a collapse of bare items always succeeds if two more passes are allowed than there
are items. The result has exactly the items of the expression, in order, each once and once more
for every seam of chunks at which it stands; that is at most one if any two items fit into a
chunk. So it is what the server makes of the whole expression exactly if it has no seam. It has
none if the different items, and any of them again, fit into one chunk. -/
theorem collapse_repeats (dedupes : Dedupes answer) (limits : Limits) (e : Expression)
    (asked : List Query) (bare : HasBareItems e)
    (enough : e.items.length + 2 ≤ limits.maxPasses) :
    ∃ kept, ((Server.stateless answer).collapse limits e asked).1 = .ok (Text.join "," kept) ∧
      kept.Pairwise (· ≤ ·) ∧ (∀ x, x ∈ kept ↔ x ∈ e.items) ∧
      (∀ x ∈ kept, kept.count x = 1 + (seamsOf limits.maxChars kept).count x) ∧
      ((e.items.Pairwise fun a b => cost a + cost b ≤ limits.maxChars) →
        (seamsOf limits.maxChars kept).Nodup) ∧
      (kept = Text.sortUnique e.items ↔ seamsOf limits.maxChars kept = []) ∧
      ((∀ x ∈ e.items, weight (Text.sortUnique e.items) + cost x ≤ limits.maxChars) →
        kept = Text.sortUnique e.items) := by
  obtain ⟨kept, hresult, hthin⟩ := exists_collapse_dedupes dedupes bare enough asked
  refine ⟨kept, hresult, hthin.ordered.sorted, hthin.mem_iff, ?_, ?_, hthin.eq_sortUnique_iff, ?_⟩
  · intro x hx
    exact hthin.count_eq hx
  · intro fits
    refine hthin.areStrict.nodup_seams (isChain_chunks _ _) fun x hx => ?_
    rw [hthin.flatten_chunks] at hx
    exact hthin.room_twice fits hx
  · intro hroom
    exact hthin.eq_sortUnique_iff.2 (hthin.seamsOf_eq_nil hroom)

/-- A server that drops repetitions and does nothing else. -/
def dedupe (q : Query) : Except QueryError Reply :=
  .ok (.body (Text.join "," (Text.sortUnique (Expression.mk q.expr).items)))

theorem dedupes_dedupe : Dedupes dedupe := fun _ => ⟨_, rfl, rfl⟩

/-- Four items, of which any two fit into a chunk but not three: at most one of them is left
twice. -/
theorem collapse_repeats_four :
    HasBareItems ⟨"c,b,a,b"⟩ ∧ (Expression.mk "c,b,a,b").items.length + 2 ≤ 6 ∧
      ∃ kept, ((Server.stateless dedupe).collapse ⟨4, 6⟩ ⟨"c,b,a,b"⟩ []).1 =
          .ok (Text.join "," kept) ∧
        kept.Pairwise (· ≤ ·) ∧ (∀ x, x ∈ kept ↔ x ∈ ["a", "b", "c"]) ∧
        (seamsOf 4 kept).Nodup ∧ (kept = ["a", "b", "c"] ↔ seamsOf 4 kept = []) := by
  have hitems : (Expression.mk "c,b,a,b").items = ["c", "b", "a", "b"] := by cbv
  have hunique : Text.sortUnique ["c", "b", "a", "b"] = ["a", "b", "c"] := by cbv
  have hbare : HasBareItems ⟨"c,b,a,b"⟩ := by simp [HasBareItems, hitems, Text.isBlank]
  have henough : (Expression.mk "c,b,a,b").items.length + 2 ≤ 6 := by
    rw [hitems]
    decide
  refine ⟨hbare, henough, ?_⟩
  obtain ⟨kept, hresult, hsorted, hmem, -, hfits, hexact, -⟩ :=
    collapse_repeats dedupes_dedupe ⟨4, 6⟩ ⟨"c,b,a,b"⟩ [] hbare henough
  rw [hitems] at hmem hfits hexact
  rw [hunique] at hexact
  refine ⟨kept, hresult, hsorted, fun x => ?_, hfits (by decide), hexact⟩
  rw [hmem, ← hunique, Text.mem_sortUnique]

/-- **An item at the seam stays twice**, although any two items fit into one chunk. In order the
items are cut into "a,b" and "b,c", and neither has a repetition: no number of passes comes to
"a,b,c". -/
theorem collapse_keeps_repeat :
    Dedupes dedupe ∧ HasBareItems ⟨"a,b,b,c"⟩ ∧
      ((Expression.mk "a,b,b,c").items.Pairwise fun a b => cost a + cost b ≤ 4) ∧
      Text.join "," (Text.sortUnique (Expression.mk "a,b,b,c").items) = "a,b,c" ∧
      ∀ passes, 0 < passes →
        ((Server.stateless dedupe).collapse ⟨4, passes⟩ ⟨"a,b,b,c"⟩ []).1 = .ok "a,b,b,c" := by
  have hitems : (Expression.mk "a,b,b,c").items = ["a", "b", "b", "c"] := by cbv
  refine ⟨dedupes_dedupe, ?_, ?_, ?_, fun passes hpasses => ?_⟩
  · simp [HasBareItems, hitems, Text.isBlank]
  · rw [hitems]
    decide
  · cbv
  · have hlong : (Limits.mk 4 passes).maxChars < (Expression.mk "a,b,b,c").size := by
      show 4 < (Expression.mk "a,b,b,c").size
      decide
    have hfixed : nextOf dedupe 4 "a,b,b,c" = .ok "a,b,b,c" := by cbv
    have hfirst : IsFirstFixed (nextOf dedupe 4) "a,b,b,c" 0 "a,b,b,c" :=
      ⟨rfl, hfixed, fun j hj => absurd hj (Nat.not_lt_zero j)⟩
    have hend : Ending (nextOf dedupe 4) ⟨4, passes⟩ "a,b,b,c" passes
        ((Server.stateless dedupe).collapse ⟨4, passes⟩ ⟨"a,b,b,c"⟩ []).1 :=
      Server.ending_collapse dedupe [] hlong
    exact hfirst.eq_ok hpasses hend

end Range
end ClusterSync
