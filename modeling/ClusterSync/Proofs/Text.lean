/-
# Texts that are cut, joined and sorted

Cutting a text at a separator is what `List.splitOn` does (`splitOn_eq`). Joining the pieces
gives the text back (`join_splitOn`), and the pieces of a text that has been joined are the
pieces of its parts (`splitOn_join`). In bytes such a text takes up what its parts take up, and
one more for each separator (`size_join`).

Sorting a list keeps its members and puts them in order; leaving out repetitions from a sorted
list leaves each member once (`mem_sortUnique`, `pairwise_sortUnique`). On a list that is sorted
already, it does nothing but take members away (`sortUnique_sublist`).

A text is read line by line: the first line ends at the first line feed (`lines_append`), and what
is left behind the last one is a line if it is not empty (`lines_of_not_mem`).
-/

import Mathlib.Algebra.GroupWithZero.Nat
import ClusterSync.Text.Blank
import ClusterSync.Text.Order

namespace ClusterSync
namespace Text

theorem splitOn_eq (sep : Char) (cs : List Char) : splitOn sep cs = cs.splitOn sep := by
  induction cs with
  | nil => rfl
  | cons c cs ih =>
    have hne : cs.splitOn sep ≠ [] := List.splitOn_ne_nil sep cs
    rw [splitOn, List.splitOn_cons_eq_if_modifyHead, ih]
    simp only [beq_iff_eq]
    split
    · rfl
    · cases h : cs.splitOn sep with
      | nil => exact absurd h hne
      | cons piece pieces => rfl

theorem not_mem_of_mem_splitOn {sep : Char} {cs piece : List Char} (h : piece ∈ splitOn sep cs) :
    sep ∉ piece := by
  induction cs generalizing piece with
  | nil => simp_all [splitOn]
  | cons c cs ih =>
    rw [splitOn] at h
    split at h
    · rcases List.mem_cons.1 h with rfl | h
      · exact List.not_mem_nil
      · exact ih h
    · next hc =>
      split at h
      · next hnil => exact absurd hnil (splitOn_ne_nil sep cs)
      · next first rest heq =>
        rcases List.mem_cons.1 h with rfl | h
        · have hfirst : sep ∉ first := ih (heq ▸ List.mem_cons_self ..)
          exact fun hmem => (List.mem_cons.1 hmem).elim (fun h => hc h.symm) hfirst
        · exact ih (heq ▸ List.mem_cons_of_mem _ h)

/-- Only separators are lost. -/
theorem exists_mem_splitOn {sep c : Char} {cs : List Char} (h : c ∈ cs) (hne : c ≠ sep) :
    ∃ piece ∈ splitOn sep cs, c ∈ piece := by
  induction cs with
  | nil => cases h
  | cons d cs ih =>
    rw [splitOn]
    split
    · next hd =>
      have hrest : c ∈ cs := (List.mem_cons.1 h).resolve_left fun heq => hne (heq.trans hd)
      obtain ⟨piece, hpiece, hc⟩ := ih hrest
      exact ⟨piece, List.mem_cons_of_mem _ hpiece, hc⟩
    · split
      · next hnil => exact absurd hnil (splitOn_ne_nil sep cs)
      · next first rest heq =>
        rcases List.mem_cons.1 h with rfl | hrest
        · exact ⟨c :: first, List.mem_cons_self .., List.mem_cons_self ..⟩
        · obtain ⟨piece, hpiece, hc⟩ := ih hrest
          rcases List.mem_cons.1 (heq ▸ hpiece) with rfl | hpiece
          · exact ⟨d :: piece, List.mem_cons_self .., List.mem_cons_of_mem d hc⟩
          · exact ⟨piece, List.mem_cons_of_mem _ hpiece, hc⟩

/-- Joining the pieces of a text gives it back. -/
theorem join_splitOn (s : String) :
    join "," ((splitOn ',' s.toList).map String.ofList) = s := by
  apply String.toList_inj.1
  have hmap : ((splitOn ',' s.toList).map String.ofList).map String.toList =
      splitOn ',' s.toList := by
    simp [Function.comp_def]
  rw [join, String.toList_intercalate, hmap, splitOn_eq]
  exact List.intercalate_splitOn ','

/-- **The pieces of a text that has been joined are those of its parts.** -/
theorem splitOn_join {parts : List String} (h : parts ≠ []) :
    splitOn ',' (join "," parts).toList = parts.flatMap fun p => splitOn ',' p.toList := by
  induction parts with
  | nil => exact absurd rfl h
  | cons p rest ih =>
    cases rest with
    | nil => simp [join]
    | cons q rest =>
      have hjoin : (join "," (p :: q :: rest)).toList =
          p.toList ++ ',' :: (join "," (q :: rest)).toList := by
        simp [join]
      rw [List.flatMap_cons, ← ih (List.cons_ne_nil q rest), hjoin]
      simp only [splitOn_eq]
      exact List.splitOn_append_cons_self _ _

/-- What parts take up, each with one byte for a separator behind it. -/
theorem size_join {parts : List String} (h : parts ≠ []) :
    size (join "," parts) + 1 = (parts.map fun p => size p + 1).sum := by
  induction parts with
  | nil => exact absurd rfl h
  | cons p rest ih =>
    cases rest with
    | nil => simp [join]
    | cons q rest =>
      have hcomma : ",".utf8ByteSize = 1 := rfl
      have hjoin : size (join "," (p :: q :: rest)) =
          size p + 1 + size (join "," (q :: rest)) := by
        simp only [join, size, String.intercalate_cons_cons, String.utf8ByteSize_append, hcomma]
      rw [List.map_cons, List.sum_cons, ← ih (List.cons_ne_nil q rest), hjoin]
      omega

theorem dropWhile_eq_self {p : Char → Bool} {cs : List Char} (h : ∀ c ∈ cs.head?, p c = false) :
    cs.dropWhile p = cs := by
  cases cs with
  | nil => rfl
  | cons c cs => exact List.dropWhile_cons_of_neg (by simp [h c rfl])

/-- Nothing is taken off an end that is to be kept. -/
theorem dropEndWhile_eq_self {p : Char → Bool} {cs : List Char}
    (h : ∀ c ∈ cs.getLast?, p c = false) : dropEndWhile p cs = cs := by
  have hreverse : ∀ c ∈ cs.reverse.head?, p c = false := by
    rwa [List.head?_reverse]
  rw [dropEndWhile, dropWhile_eq_self hreverse, List.reverse_reverse]

theorem dropEndWhile_append {p : Char → Bool} {rest : List Char} (hrest : ∀ c ∈ rest, p c = true)
    (cs : List Char) : dropEndWhile p (cs ++ rest) = dropEndWhile p cs := by
  have hreverse : ∀ c ∈ rest.reverse, p c = true := fun c hc => hrest c (List.mem_reverse.1 hc)
  rw [dropEndWhile, dropEndWhile, List.reverse_append, List.dropWhile_append_of_pos hreverse]

/-- Nothing is taken off a text if both its ends are to be kept. -/
theorem stripWhile_eq_self {p : Char → Bool} {cs : List Char} (hhead : ∀ c ∈ cs.head?, p c = false)
    (hlast : ∀ c ∈ cs.getLast?, p c = false) : stripWhile p cs = cs := by
  rw [stripWhile, dropWhile_eq_self hhead, dropEndWhile_eq_self hlast]

/-- What is to be kept stays. -/
theorem mem_dropWhile {p : Char → Bool} {c : Char} {cs : List Char} (hc : c ∈ cs)
    (hp : p c = false) : c ∈ cs.dropWhile p := by
  induction cs with
  | nil => exact hc
  | cons d cs ih =>
    cases hd : p d with
    | false => rwa [List.dropWhile_cons_of_neg (by simp [hd])]
    | true =>
      rw [List.dropWhile_cons_of_pos hd]
      rcases List.mem_cons.1 hc with rfl | hc
      · simp [hp] at hd
      · exact ih hc

theorem mem_stripWhile {p : Char → Bool} {c : Char} {cs : List Char} (hc : c ∈ cs)
    (hp : p c = false) : c ∈ stripWhile p cs := by
  rw [stripWhile, dropEndWhile, List.mem_reverse]
  exact mem_dropWhile (List.mem_reverse.2 (mem_dropWhile hc hp)) hp

theorem mem_sort {x : String} {xs : List String} : x ∈ sort xs ↔ x ∈ xs := List.mem_mergeSort

theorem sort_perm (xs : List String) : (sort xs).Perm xs := List.mergeSort_perm xs _

theorem pairwise_sort (xs : List String) : (sort xs).Pairwise (· ≤ ·) := by
  have h : (sort xs).Pairwise fun a b => decide (a ≤ b) = true := by
    refine List.pairwise_mergeSort (fun a b c hab hbc => ?_) (fun a b => ?_) xs
    · simp only [decide_eq_true_iff] at *
      exact Std.le_trans hab hbc
    · simp only [Bool.or_eq_true, decide_eq_true_iff]
      exact Std.le_total
  exact h.imp fun hab => of_decide_eq_true hab

/-- Texts without repetitions are sorted strictly. -/
theorem pairwise_lt_sort {xs : List String} (h : xs.Nodup) : (sort xs).Pairwise (· < ·) := by
  have hnd : (sort xs).Nodup := (sort_perm xs).nodup_iff.2 h
  refine ((pairwise_sort xs).and hnd).imp fun ⟨hle, hne⟩ => ?_
  exact Std.lt_of_le_of_ne hle hne

theorem mem_dropRepeats {x : String} {xs : List String} : x ∈ dropRepeats xs ↔ x ∈ xs := by
  fun_induction dropRepeats xs with
  | case1 => rfl
  | case2 y => rfl
  | case3 y rest ih => simp [ih]
  | case4 y z rest hne ih => simp [ih]

/-- In a sorted list the repetitions of a text stand side by side. -/
theorem pairwise_dropRepeats {xs : List String} (h : xs.Pairwise (· ≤ ·)) :
    (dropRepeats xs).Pairwise (· < ·) := by
  fun_induction dropRepeats xs with
  | case1 => exact .nil
  | case2 y => exact List.pairwise_singleton _ y
  | case3 y rest ih => exact ih h.of_cons
  | case4 y z rest hne ih =>
    refine List.pairwise_cons.2 ⟨fun x hx => ?_, ih h.of_cons⟩
    have hyz : y < z := Std.lt_of_le_of_ne (List.rel_of_pairwise_cons h (List.mem_cons_self ..)) hne
    rcases List.mem_cons.1 (mem_dropRepeats.1 hx) with rfl | hrest
    · exact hyz
    · exact Std.lt_of_lt_of_le hyz (List.rel_of_pairwise_cons h.of_cons hrest)

theorem mem_sortUnique {x : String} {xs : List String} : x ∈ sortUnique xs ↔ x ∈ xs :=
  mem_dropRepeats.trans mem_sort

theorem pairwise_sortUnique (xs : List String) : (sortUnique xs).Pairwise (· < ·) :=
  pairwise_dropRepeats (pairwise_sort xs)

/-- A list in strict order is known by its members. -/
theorem eq_of_pairwise_lt {xs ys : List String} (hx : xs.Pairwise (· < ·))
    (hy : ys.Pairwise (· < ·)) (h : ∀ x, x ∈ xs ↔ x ∈ ys) : xs = ys := by
  have hperm : xs.Perm ys :=
    (List.perm_ext_iff_of_nodup (hx.imp Std.ne_of_lt) (hy.imp Std.ne_of_lt)).2 h
  refine hperm.eq_of_pairwise (fun a b _ _ hab hba => ?_) hx hy
  exact absurd (Std.lt_trans hab hba) (Std.Irrefl.irrefl a)

/-! ### Lists that are sorted -/

theorem sort_eq_self {xs : List String} (h : xs.Pairwise (· ≤ ·)) : sort xs = xs :=
  List.mergeSort_of_pairwise (h.imp fun hab => decide_eq_true hab)

theorem dropRepeats_sublist (xs : List String) : (dropRepeats xs).Sublist xs := by
  fun_induction dropRepeats xs with
  | case1 => exact .slnil
  | case2 y => exact List.Sublist.refl _
  | case3 y rest ih => exact ih.cons y
  | case4 y z rest hne ih => exact ih.cons_cons y

/-- Leaving out repetitions takes away members of a sorted list. -/
theorem sortUnique_sublist {xs : List String} (h : xs.Pairwise (· ≤ ·)) :
    (sortUnique xs).Sublist xs := by
  rw [sortUnique, sort_eq_self h]
  exact dropRepeats_sublist xs

/-! ### Texts joined in groups -/

/-- What has been joined in groups is what is joined at once. -/
theorem join_map_join {groups : List (List String)} (h : ∀ group ∈ groups, group ≠ []) :
    join "," (groups.map (join ",")) = join "," groups.flatten := by
  induction groups with
  | nil => rfl
  | cons group rest ih =>
    have hgroup : group ≠ [] := h group (List.mem_cons_self ..)
    have hrest := ih fun g hg => h g (List.mem_cons_of_mem group hg)
    cases rest with
    | nil => simp [join]
    | cons next rest =>
      have hflat : (next :: rest).flatten ≠ [] := by
        have hnext : next ≠ [] := h next (by simp)
        simp [hnext]
      rw [List.flatten_cons, join, join, String.intercalate_append_of_ne_nil hgroup hflat,
        List.map_cons, String.intercalate_cons_of_ne_nil (by simp)]
      exact congrArg _ hrest

/-! ### Lines -/

/-- What a line loses with a carriage return is white space. -/
theorem dropEndWhile_dropReturn (line : List Char) :
    dropEndWhile isBlank (dropReturn line) = dropEndWhile isBlank line := by
  unfold dropReturn
  split
  · next rest hreverse =>
    have hline : line = rest.reverse ++ ['\r'] := by
      rw [← List.reverse_inj, hreverse]
      simp
    rw [hline, dropEndWhile_append (List.forall_mem_singleton.2 rfl)]
  · rfl

/-- The first line of a text ends at its first line feed. -/
theorem lines_append {front : List Char} (h : '\n' ∉ front) (rest : List Char) :
    lines (front ++ '\n' :: rest) = dropReturn front :: lines rest := by
  have hsplit : splitOn '\n' (front ++ '\n' :: rest) = front :: splitOn '\n' rest := by
    rw [splitOn_eq, List.splitOn_append_cons_self, List.splitOn_eq_singleton h,
      List.singleton_append, splitOn_eq]
  rw [lines, lines, hsplit, List.reverse_cons]
  cases hpieces : (splitOn '\n' rest).reverse with
  | nil => exact absurd (List.reverse_eq_nil_iff.1 hpieces) (splitOn_ne_nil '\n' rest)
  | cons last ended =>
    simp only [List.cons_append, List.map_append, List.reverse_append, List.map_cons, List.map_nil,
      List.reverse_cons, List.reverse_nil, List.nil_append]
    split <;> rfl

/-- A text without a line feed is one line, or none if it is empty. -/
theorem lines_of_not_mem {cs : List Char} (h : '\n' ∉ cs) :
    lines cs = if cs = [] then [] else [cs] := by
  rw [lines, splitOn_eq, List.splitOn_eq_singleton h]
  simp

end Text
end ClusterSync
