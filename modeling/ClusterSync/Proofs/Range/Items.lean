/-
# The items of an expression

An item is a text that is not empty and has no comma in it (`IsItem`). All that an expression
is cut into are items, and an expression that is made by joining has the items of its parts
(`items_ofItems`): joining items gives an expression with just these
(`items_ofItems_of_isItem`).

In a chunk each item counts with the comma behind it, so that the items of an expression weigh
at most one more than it has bytes (`weight_items_le`).
-/

import ClusterSync.Proofs.Text
import ClusterSync.Range.Expression

namespace ClusterSync
namespace Range
namespace Expression

variable {item : String} {e : Expression} {parts : List String}

/-- A text that can be an item. -/
structure IsItem (text : String) : Prop where
  ne_empty : text ≠ ""
  noComma : ',' ∉ text.toList

theorem isItem_of_mem_items (h : item ∈ e.items) : IsItem item := by
  obtain ⟨piece, hpiece, rfl⟩ := List.mem_map.1 h
  obtain ⟨hmem, hne⟩ := List.mem_filter.1 hpiece
  refine ⟨fun hempty => ?_, ?_⟩
  · have hnil : piece = [] := by simpa using hempty
    simp [hnil] at hne
  · rw [String.toList_ofList]
    exact Text.not_mem_of_mem_splitOn hmem

theorem IsItem.items_eq (h : IsItem item) : (Expression.mk item).items = [item] := by
  have hne : item.toList ≠ [] := fun hnil => h.ne_empty (String.toList_eq_nil_iff.1 hnil)
  rw [items, Text.splitOn_eq, List.splitOn_eq_singleton h.noComma]
  simp [hne]

/-- **An expression that is made by joining has the items of its parts.** -/
theorem items_ofItems (parts : List String) :
    (ofItems parts).items = parts.flatMap fun p => (Expression.mk p).items := by
  by_cases hnil : parts = []
  · subst hnil
    rfl
  · rw [items, ofItems, Text.splitOn_join hnil, List.filter_flatMap, List.map_flatMap]
    rfl

theorem items_ofItems_of_isItem (h : ∀ item ∈ parts, IsItem item) :
    (ofItems parts).items = parts := by
  rw [items_ofItems]
  induction parts with
  | nil => rfl
  | cons p rest ih =>
    rw [List.flatMap_cons, (h p (List.mem_cons_self ..)).items_eq,
      ih fun item hitem => h item (List.mem_cons_of_mem p hitem)]
    rfl

/-- What items take up in a chunk. -/
def weight (items : List String) : Nat := (items.map cost).sum

@[simp] theorem weight_nil : weight [] = 0 := rfl

@[simp] theorem weight_cons (item : String) (items : List String) :
    weight (item :: items) = cost item + weight items := rfl

theorem weight_perm {xs ys : List String} (h : xs.Perm ys) : weight xs = weight ys :=
  (h.map cost).sum_nat

theorem weight_le_of_sublist {xs ys : List String} (h : xs.Sublist ys) : weight xs ≤ weight ys := by
  induction h with
  | slnil => exact Nat.le_refl _
  | cons y _ ih => exact Nat.le_trans ih (Nat.le_add_left ..)
  | cons_cons y _ ih => exact Nat.add_le_add_left ih _

/-- What items take up once they are joined, and a comma behind them. -/
theorem size_join_eq_weight (h : parts ≠ []) : Text.size (Text.join "," parts) + 1 = weight parts :=
  Text.size_join h

/-- **The items of an expression weigh at most one more than it has bytes.** They are its
pieces without the empty ones. -/
theorem weight_items_le (e : Expression) : weight e.items ≤ e.size + 1 := by
  let pieces := (Text.splitOn ',' e.text.toList).map String.ofList
  have hne : pieces ≠ [] := by
    simpa [pieces] using Text.splitOn_ne_nil ',' e.text.toList
  have hsize : e.size + 1 = weight pieces := by
    rw [size, ← Text.join_splitOn e.text]
    exact size_join_eq_weight hne
  rw [hsize]
  exact weight_le_of_sublist (List.filter_sublist.map String.ofList)

end Expression
end Range
end ClusterSync
