/-
# What publishing keeps of a cluster

Publishing may put a text into `q(...)` and rename a key. It changes no kind of value: nulls, truth
values, numbers and texts come out as what they are, a text that looks like a number among them,
and all but texts with the same value (`Scalar.IsKeptAs`). Lists keep their length and order.

Which values come out is told by the keys (`Attributes.AreKeptAs`): of the keys that get one name
the value of the greatest, and an empty `CLUSTER` where no key gets that name.
-/

import ClusterSync.Proofs.Cluster.ValueForm

namespace ClusterSync

/-- Is a scalar published as another one? A text comes out as it is if it is in the form of
publishing, and else as a literal with its parentheses escaped. -/
inductive Scalar.IsKeptAs : Scalar → Scalar → Prop
  | null : IsKeptAs null null
  | bool (b : Bool) : IsKeptAs (bool b) (bool b)
  | integer (i : Int64) : IsKeptAs (integer i) (integer i)
  | unsigned (u : UInt64) : IsKeptAs (unsigned u) (unsigned u)
  | float (x : Binary64) : IsKeptAs (float x) (float x)
  | text {s : String} (h : Normal.IsValueForm s.toList) : IsKeptAs (text s) (text s)
  | literal {s : String} (h : ¬ Normal.IsValueForm s.toList) :
      IsKeptAs (text s) (text (String.ofList (Normal.quote (Normal.escape s.toList))))

/-- Is an attribute published as another one, scalar by scalar? -/
inductive Attribute.IsKeptAs : Attribute → Attribute → Prop
  | one {s t : Scalar} (h : s.IsKeptAs t) : IsKeptAs (one s) (one t)
  | many {items out : List Scalar} (h : List.Forall₂ Scalar.IsKeptAs items out) :
      IsKeptAs (many items) (many out)

/-- Are attributes published as other ones? -/
structure Attributes.AreKeptAs (data out : Attributes) : Prop where
  /-- The greatest of the keys that get one name keeps its value under that name. -/
  get?_ofKey : ∀ key a, data.get? key = some a →
    (∀ other ∈ data.keys, Normal.ofKey other = Normal.ofKey key → other ≤ key) →
      ∃ b, out.get? (Normal.ofKey key) = some b ∧ a.IsKeptAs b
  /-- Nothing stands under another name, but for an empty `CLUSTER`. -/
  get?_other : ∀ name, (∀ key ∈ data.keys, Normal.ofKey key ≠ name) →
    out.get? name = if name = clusterKey then some .blank else none

namespace Normal

theorem isKeptAs_ofScalar (s : Scalar) : s.IsKeptAs (ofScalar s) := by
  cases s with
  | null => exact .null
  | bool b => exact .bool b
  | integer i => exact .integer i
  | unsigned u => exact .unsigned u
  | float x => exact .float x
  | text s =>
    rw [ofScalar, ofText, valueChars_eq]
    split
    · next hform =>
      rw [String.ofList_toList]
      exact .text hform
    · next hform => exact .literal hform

theorem isKeptAs_ofAttribute (a : Attribute) : a.IsKeptAs (ofAttribute a) := by
  cases a with
  | one s => exact .one (isKeptAs_ofScalar s)
  | many items =>
    exact .many (List.forall₂_map_right_iff.2 (List.forall₂_same.2 fun s _ => isKeptAs_ofScalar s))

/-- **Publishing keeps the kind and the value of every scalar** whose key is published. -/
theorem areKeptAs_published (data : Attributes) : data.AreKeptAs (published data) where
  get?_ofKey key a hget greatest := by
    have hlast : lastKey? data (ofKey key) = some key :=
      lastKey?_eq_some_iff.2 ⟨Table.mem_keys_iff_exists.2 ⟨a, hget⟩, rfl, greatest⟩
    have hvalue : (ofAttributes data).get? (ofKey key) = some (ofAttribute a) := by
      rw [get?_ofAttributes, hlast, Option.bind_some, hget, Option.map_some]
    exact ⟨ofAttribute a, get?_published_of_eq_some hvalue, isKeptAs_ofAttribute a⟩
  get?_other name hother := by
    have hnone : (ofAttributes data).get? name = none := by
      rw [get?_ofAttributes, lastKey?_eq_none_iff.2 hother, Option.bind_none]
    by_cases hname : name = clusterKey
    · subst hname
      have hmissing : (ofAttributes data).contains clusterKey = false := by
        rw [Table.contains, hnone, Option.isSome_none]
      rw [published_eq, hmissing, if_neg Bool.false_ne_true, Table.get?_insert, if_pos rfl,
        if_pos rfl]
    · rw [if_neg hname, published_eq]
      split
      · exact hnone
      · rw [Table.get?_insert, if_neg (Ne.symm hname), hnone]

end Normal
end ClusterSync
