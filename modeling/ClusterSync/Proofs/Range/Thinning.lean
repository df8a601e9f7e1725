/-
# Passes that drop repetitions

A server may do nothing to an expression but put its items in order and drop repetitions
(`Dedupes`). One pass of a collapse over such a server then drops the repetitions inside each chunk
(`thinned`, `nextOf_dedupes`): what is left has the same items, some of them fewer times, and is in
order.

A pass that changes items which are in order leaves fewer of them. So a pass that changes nothing
comes after at most as many passes as there are items, and one more to put them in order
(`exists_isFirstFixed`): with two passes more than there are items, a collapse always ends
(`exists_thin_of_dedupes`). What it ends with has no repetition inside a chunk.
-/

import ClusterSync.Proofs.Range.Idempotence

namespace ClusterSync
namespace Range

open Expression

variable {answer : Query → Except QueryError Reply} {limits : Limits} {limit : Nat}
  {e : Expression} {items chunk : List String} {groups : List (List String)} {item x : String}
  {replies : List Reply} {asked : List Query}

/-! ### Items without white space -/

/-- An item with no white space in it. -/
structure IsBareItem (text : String) : Prop where
  ne_empty : text ≠ ""
  bare : ∀ c ∈ text.toList, IsBareChar c

theorem IsBareItem.isItem (h : IsBareItem item) : IsItem item :=
  ⟨h.ne_empty, fun hcomma => (h.bare ',' hcomma).2 rfl⟩

/-- Are the items of an expression free of white space? -/
def HasBareItems (e : Expression) : Prop :=
  ∀ item ∈ e.items, ∀ c ∈ item.toList, Text.isBlank c = false

theorem HasBareItems.isBareItem (h : HasBareItems e) (hitem : item ∈ e.items) :
    IsBareItem item := by
  have hi := isItem_of_mem_items hitem
  refine ⟨hi.ne_empty, fun c hc => ⟨h item hitem c hc, ?_⟩⟩
  rintro rfl
  exact hi.noComma hc

/-- What is joined begins with the first part. -/
theorem exists_toList_join_cons (item : String) (rest : List String) :
    ∃ behind, (Text.join "," (item :: rest)).toList = item.toList ++ behind := by
  cases rest with
  | nil => exact ⟨[], by simp [Text.join]⟩
  | cons next rest =>
    refine ⟨("," ++ String.intercalate "," (next :: rest)).toList, ?_⟩
    rw [Text.join, String.intercalate_cons_cons, String.append_assoc, String.toList_append]

/-- It ends with the last one. -/
theorem exists_toList_join_concat (items : List String) (item : String) :
    ∃ before, (Text.join "," (items ++ [item])).toList = before ++ item.toList := by
  by_cases hnil : items = []
  · exact ⟨[], by simp [hnil, Text.join]⟩
  · refine ⟨(String.intercalate "," items ++ ",").toList, ?_⟩
    rw [Text.join, String.intercalate_append_of_ne_nil hnil (List.cons_ne_nil item []),
      String.intercalate_singleton, String.toList_append]

/-- So what is joined from bare items has bare ends. -/
theorem hasBareEnds_join (h : ∀ item ∈ items, IsBareItem item) :
    HasBareEnds (Text.join "," items) := by
  have hne : ∀ item ∈ items, item.toList ≠ [] := fun item hitem hnil =>
    (h item hitem).ne_empty (String.toList_eq_nil_iff.1 hnil)
  constructor
  · intro c hc
    cases items with
    | nil => simp [Text.join] at hc
    | cons item rest =>
      obtain ⟨behind, heq⟩ := exists_toList_join_cons item rest
      rw [heq, List.head?_append_of_ne_nil _ (hne item (List.mem_cons_self ..))] at hc
      exact (h item (List.mem_cons_self ..)).bare c (List.mem_of_mem_head? hc)
  · intro c hc
    rcases List.eq_nil_or_concat items with rfl | ⟨rest, item, rfl⟩
    · simp [Text.join] at hc
    · rw [List.concat_eq_append] at h hc hne
      have hmem : item ∈ rest ++ [item] := by simp
      obtain ⟨before, heq⟩ := exists_toList_join_concat rest item
      rw [heq, List.getLast?_append_of_ne_nil _ (hne item hmem)] at hc
      exact (h item hmem).bare c (List.mem_of_mem_getLast? hc)

/-- **Answers that are joins of bare items make one join of all of them.** -/
theorem joinPass_eq (hreplies : replies.map Reply.toExpression = groups.map (Text.join ","))
    (hne : ∀ group ∈ groups, group ≠ [])
    (hbare : ∀ group ∈ groups, ∀ item ∈ group, IsBareItem item) :
    Server.joinPass replies = Text.join "," groups.flatten := by
  have htrim : replies.map (fun r => Text.trim r.toExpression) = groups.map (Text.join ",") := by
    have hparts : replies.map (fun r => Text.trim r.toExpression) =
        (replies.map Reply.toExpression).map Text.trim := by
      rw [List.map_map]
      rfl
    rw [hparts, hreplies, List.map_map]
    refine List.map_congr_left fun group hgroup => ?_
    exact (hasBareEnds_join (hbare group hgroup)).trim_eq
  have hall : ∀ item ∈ groups.flatten, IsBareItem item := by
    intro item hitem
    obtain ⟨group, hgroup, hmem⟩ := List.mem_flatten.1 hitem
    exact hbare group hgroup item hmem
  rw [Server.joinPass, htrim, Text.join_map_join hne, (hasBareEnds_join hall).stripCommas_eq]

/-! ### One pass -/

/-- A server that collapses an expression to its items in byte order, each once. -/
def Dedupes (answer : Query → Except QueryError Reply) : Prop :=
  ∀ text, ∃ reply, answer ⟨.collapse, text⟩ = .ok reply ∧
    reply.toExpression = Text.join "," (Text.sortUnique (Expression.mk text).items)

/-- The items that are left if repetitions are dropped inside each chunk. -/
def thinned (limit : Nat) (e : Expression) : List String :=
  (e.chunks limit).flatMap Text.sortUnique

theorem Dedupes.exists_mapM_eq_ok (dedupes : Dedupes answer)
    (h : ∀ chunk ∈ groups, ∀ item ∈ chunk, IsItem item) :
    ∃ replies, (groups.mapM fun chunk => answer ⟨.collapse, Text.join "," chunk⟩) = .ok replies ∧
      replies.map Reply.toExpression = (groups.map Text.sortUnique).map (Text.join ",") := by
  induction groups with
  | nil => exact ⟨[], rfl, rfl⟩
  | cons chunk rest ih =>
    obtain ⟨replies, hreplies, hmap⟩ := ih fun c hc => h c (List.mem_cons_of_mem chunk hc)
    obtain ⟨reply, hreply, htext⟩ := dedupes (Text.join "," chunk)
    have hitems : (Expression.mk (Text.join "," chunk)).items = chunk :=
      items_ofItems_of_isItem (h chunk (List.mem_cons_self ..))
    refine ⟨reply :: replies, ?_, ?_⟩
    · rw [List.mapM_cons, hreply, hreplies]
      rfl
    · rw [List.map_cons, hmap, htext, hitems]
      rfl

/-- **A pass over such a server drops the repetitions inside each chunk.** -/
theorem nextOf_dedupes (dedupes : Dedupes answer) (bare : HasBareItems e) :
    nextOf answer limit e.text = .ok (Text.join "," (thinned limit e)) := by
  have hchunk : ∀ chunk ∈ e.chunks limit, ∀ item ∈ chunk, IsBareItem item := by
    intro chunk hchunk item hitem
    exact bare.isBareItem (exists_mem_chunks_iff.1 ⟨chunk, hchunk, hitem⟩)
  obtain ⟨replies, hreplies, hmap⟩ := dedupes.exists_mapM_eq_ok
    fun chunk hc item hitem => (hchunk chunk hc item hitem).isItem
  have hjoin : Server.joinPass replies = Text.join "," (thinned limit e) := by
    rw [thinned, List.flatMap_def]
    refine joinPass_eq hmap ?_ ?_
    · intro group hgroup hnil
      obtain ⟨chunk, hc, rfl⟩ := List.mem_map.1 hgroup
      obtain ⟨item, hitem⟩ := List.exists_mem_of_ne_nil chunk (isChunk_of_mem_chunks hc).ne_nil
      have hmem := Text.mem_sortUnique.2 hitem
      rw [hnil] at hmem
      exact List.not_mem_nil hmem
    · intro group hgroup item hitem
      obtain ⟨chunk, hc, rfl⟩ := List.mem_map.1 hgroup
      exact hchunk chunk hc item (Text.mem_sortUnique.1 hitem)
  rw [nextOf, hreplies, ← hjoin]
  rfl

/-! ### Fewer items with every pass -/

section Parts

variable {f : List String → List String}

/-- Taking away from each group takes away from all of them. -/
theorem flatMap_sublist_flatten (h : ∀ group ∈ groups, (f group).Sublist group) :
    (groups.flatMap f).Sublist groups.flatten := by
  induction groups with
  | nil => exact .slnil
  | cons group rest ih =>
    rw [List.flatMap_cons, List.flatten_cons]
    exact (h group (List.mem_cons_self ..)).append
      (ih fun g hg => h g (List.mem_cons_of_mem group hg))

/-- Where nothing is missing from all groups, nothing is missing from any: no group makes up for
what another one has lost. -/
theorem eq_of_flatMap_eq_flatten (h : ∀ group ∈ groups, (f group).Sublist group)
    (heq : groups.flatMap f = groups.flatten) : ∀ group ∈ groups, f group = group := by
  induction groups with
  | nil => exact fun group hgroup => absurd hgroup List.not_mem_nil
  | cons group rest ih =>
    have hfirst : (f group).Sublist group := h group (List.mem_cons_self ..)
    have hothers : ∀ g ∈ rest, (f g).Sublist g := fun g hg => h g (List.mem_cons_of_mem group hg)
    have hlength := congrArg List.length heq
    rw [List.flatMap_cons, List.flatten_cons, List.length_append, List.length_append] at hlength
    have hle₁ := hfirst.length_le
    have hle₂ := (flatMap_sublist_flatten hothers).length_le
    have hsame : f group = group := hfirst.eq_of_length (by omega)
    intro g hg
    rcases List.mem_cons.1 hg with rfl | hg
    · exact hsame
    · rw [List.flatMap_cons, List.flatten_cons, hsame] at heq
      exact ih hothers (List.append_cancel_left heq) g hg

end Parts

/-- What a pass leaves of a chunk is a part of it. -/
theorem sortUnique_sublist_of_mem_chunks :
    ∀ chunk ∈ e.chunks limit, (Text.sortUnique chunk).Sublist chunk :=
  fun _ h => Text.sortUnique_sublist (isChunk_of_mem_chunks h).sorted

theorem thinned_sublist (limit : Nat) (e : Expression) :
    (thinned limit e).Sublist (Text.sort e.items) := by
  rw [← flatten_chunks e limit]
  exact flatMap_sublist_flatten sortUnique_sublist_of_mem_chunks

theorem mem_thinned : x ∈ thinned limit e ↔ x ∈ e.items := by
  simp only [thinned, List.mem_flatMap, Text.mem_sortUnique]
  exact exists_mem_chunks_iff

/-- **A pass that leaves all items finds no repetition in any chunk.** -/
theorem pairwise_lt_of_thinned (h : thinned limit e = Text.sort e.items)
    (hchunk : chunk ∈ e.chunks limit) : chunk.Pairwise (· < ·) := by
  rw [← flatten_chunks e limit] at h
  have hsame := eq_of_flatMap_eq_flatten sortUnique_sublist_of_mem_chunks h chunk hchunk
  rw [← hsame]
  exact Text.pairwise_sortUnique chunk

/-- Bare items in byte order: what an expression consists of after its first pass. -/
structure IsOrdered (items : List String) : Prop where
  bare : ∀ item ∈ items, IsBareItem item
  sorted : items.Pairwise (· ≤ ·)

theorem IsOrdered.items_eq (h : IsOrdered items) : (ofItems items).items = items :=
  items_ofItems_of_isItem fun item hitem => (h.bare item hitem).isItem

theorem IsOrdered.sort_eq (h : IsOrdered items) : Text.sort (ofItems items).items = items := by
  rw [h.items_eq]
  exact Text.sort_eq_self h.sorted

theorem IsOrdered.hasBareItems (h : IsOrdered items) : HasBareItems (ofItems items) := by
  intro item hitem c hc
  rw [h.items_eq] at hitem
  exact ((h.bare item hitem).bare c hc).1

theorem isOrdered_thinned (bare : HasBareItems e) : IsOrdered (thinned limit e) := by
  constructor
  · intro item hitem
    exact bare.isBareItem (mem_thinned.1 hitem)
  · exact (Text.pairwise_sort e.items).sublist (thinned_sublist limit e)

/-- What a collapse over such a server ends with: all items of the expression, in byte order and
none more often than before, and no item twice in one chunk. -/
structure IsThin (limit : Nat) (e : Expression) (kept : List String) : Prop where
  ordered : IsOrdered kept
  sublist : kept.Sublist (Text.sort e.items)
  mem_iff : ∀ x, x ∈ kept ↔ x ∈ e.items
  strict : ∀ chunk ∈ (ofItems kept).chunks limit, chunk.Pairwise (· < ·)

/-- **From items in order, as many passes as there are items are enough.** Each pass that changes
something leaves fewer of them. -/
theorem exists_isFirstFixed_of_isOrdered (dedupes : Dedupes answer) (limit : Nat)
    (h : IsOrdered items) :
    ∃ k ≤ items.length, ∃ kept,
      IsFirstFixed (nextOf answer limit) (Text.join "," items) k (Text.join "," kept) ∧
        IsThin limit (ofItems items) kept := by
  induction hn : items.length using Nat.strong_induction_on generalizing items with
  | _ n ih =>
    have hnext : nextOf answer limit (Text.join "," items) =
        .ok (Text.join "," (thinned limit (ofItems items))) :=
      nextOf_dedupes dedupes h.hasBareItems
    have hsub : (thinned limit (ofItems items)).Sublist items := by
      have hall := thinned_sublist limit (ofItems items)
      rwa [h.sort_eq] at hall
    by_cases hsame : thinned limit (ofItems items) = items
    · refine ⟨0, Nat.zero_le n, items, ⟨rfl, ?_, fun j hj => absurd hj (Nat.not_lt_zero j)⟩, ?_⟩
      · rw [hnext, hsame]
      · refine ⟨h, h.sort_eq.symm ▸ List.Sublist.refl _, fun x => by rw [h.items_eq], ?_⟩
        exact fun chunk => pairwise_lt_of_thinned (by rw [hsame, h.sort_eq])
    · have hlt : (thinned limit (ofItems items)).length < n := by
        rw [← hn]
        exact Nat.lt_of_le_of_ne hsub.length_le fun heq => hsame (hsub.eq_of_length heq)
      have hordered : IsOrdered (thinned limit (ofItems items)) :=
        isOrdered_thinned h.hasBareItems
      obtain ⟨k, hk, kept, hfirst, hthin⟩ := ih _ hlt hordered rfl
      have hne : Text.join "," (thinned limit (ofItems items)) ≠ Text.join "," items := by
        intro heq
        have hexpr : ofItems (thinned limit (ofItems items)) = ofItems items :=
          congrArg Expression.mk heq
        exact hsame (by rw [← hordered.items_eq, hexpr, h.items_eq])
      refine ⟨k + 1, by omega, kept, hfirst.of_next hnext hne, hthin.ordered, ?_, ?_, hthin.strict⟩
      · rw [h.sort_eq]
        exact (hordered.sort_eq ▸ hthin.sublist).trans hsub
      · intro x
        rw [hthin.mem_iff, hordered.items_eq, mem_thinned]

/-- **One pass puts the items in order**, and as many as there are items do the rest. -/
theorem exists_isFirstFixed (dedupes : Dedupes answer) (limit : Nat) (bare : HasBareItems e) :
    ∃ k ≤ e.items.length + 1, ∃ kept,
      IsFirstFixed (nextOf answer limit) e.text k (Text.join "," kept) ∧ IsThin limit e kept := by
  have hordered : IsOrdered (thinned limit e) := isOrdered_thinned bare
  have hsub := thinned_sublist limit e
  have hlength : (thinned limit e).length ≤ e.items.length := by
    rw [← (Text.sort_perm e.items).length_eq]
    exact hsub.length_le
  obtain ⟨k, hk, kept, hfirst, hthin⟩ :=
    exists_isFirstFixed_of_isOrdered dedupes limit hordered
  have hkept : IsThin limit e kept := by
    refine ⟨hthin.ordered, (hordered.sort_eq ▸ hthin.sublist).trans hsub, fun x => ?_, hthin.strict⟩
    rw [hthin.mem_iff, hordered.items_eq, mem_thinned]
  by_cases hsame : Text.join "," (thinned limit e) = e.text
  · exact ⟨k, by omega, kept, hsame ▸ hfirst, hkept⟩
  · exact ⟨k + 1, by omega, kept, hfirst.of_next (nextOf_dedupes dedupes bare) hsame, hkept⟩

/-- What fits into one query is collapsed to its items in byte order, each once. -/
theorem isThin_sortUnique (bare : HasBareItems e) :
    IsThin limit e (Text.sortUnique e.items) := by
  have hstrict := Text.pairwise_sortUnique e.items
  have hordered : IsOrdered (Text.sortUnique e.items) :=
    ⟨fun item hitem => bare.isBareItem (Text.mem_sortUnique.1 hitem),
      hstrict.imp fun hlt => Std.le_of_lt hlt⟩
  refine ⟨hordered, ?_, fun x => Text.mem_sortUnique, fun chunk hchunk => ?_⟩
  · exact Text.dropRepeats_sublist _
  · have hsub := List.sublist_flatten_of_mem hchunk
    rw [flatten_chunks, hordered.sort_eq] at hsub
    exact hstrict.sublist hsub

/-- **A collapse over such a server ends**, and comes to the same for any number of passes that is
greater by two than the number of items. -/
theorem exists_thin_of_dedupes (dedupes : Dedupes answer) (bare : HasBareItems e) (limit : Nat) :
    ∃ kept, IsThin limit e kept ∧
      ∀ passes asked, e.items.length + 2 ≤ passes →
        ((Server.stateless answer).collapse ⟨limit, passes⟩ e asked).1 =
          .ok (Text.join "," kept) := by
  rcases Nat.lt_or_ge limit e.size with hlong | hshort
  · obtain ⟨k, hk, kept, hfirst, hthin⟩ := exists_isFirstFixed dedupes limit bare
    refine ⟨kept, hthin, fun passes asked enough => ?_⟩
    have hlimits : (Limits.mk limit passes).maxChars < e.size := hlong
    have hlt : k < passes := by omega
    exact hfirst.eq_ok hlt (Server.ending_collapse answer asked hlimits)
  · obtain ⟨reply, hreply, htext⟩ := dedupes e.text
    refine ⟨Text.sortUnique e.items, isThin_sortUnique bare, fun passes asked _ => ?_⟩
    have hlimits : e.size ≤ (Limits.mk limit passes).maxChars := hshort
    rw [Server.collapse_of_size_le hlimits, Server.stateless, hreply, ← htext]
    rfl

/-- So it does if two more passes are allowed than there are items. -/
theorem exists_collapse_dedupes (dedupes : Dedupes answer) (bare : HasBareItems e)
    (enough : e.items.length + 2 ≤ limits.maxPasses) (asked : List Query) :
    ∃ kept, ((Server.stateless answer).collapse limits e asked).1 = .ok (Text.join "," kept) ∧
      IsThin limits.maxChars e kept := by
  obtain ⟨kept, hthin, hresult⟩ := exists_thin_of_dedupes dedupes bare limits.maxChars
  exact ⟨kept, hresult limits.maxPasses asked enough, hthin⟩

end Range
end ClusterSync
