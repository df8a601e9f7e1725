/-
# The form in which values and keys are published

Parentheses, white space and slashes mean something to the server. A value that is published is
either a literal `q(...)`, or it has none of them: no parenthesis, and no white space and no slash
unless it begins with a difference (`Normal.IsValueForm`).

A value in this form is left as it is, and any other one becomes a literal with its parentheses
escaped (`Normal.valueChars_eq`). It does not matter which of the two steps wraps it, since a value
that has no parentheses is its own escaped text (`Normal.escape_eq_self`). So publishing changes
exactly the values that are not in the form, all values come into it, and there they stay
(`Normal.isValueForm_valueChars`).

Keys come out without white space and semicolons. A list of scalars under a key comes from the
greatest of the keys that are published under it, scalar by scalar
(`Normal.get?_ofAttributes_eq_many_iff`).
-/

import ClusterSync.Proofs.Cluster.Collisions

namespace ClusterSync
namespace Normal

variable {cs : List Char} {c : Char} {data : Attributes} {key : String}

/-! ### Literals and differences -/

/-- Is the text a literal, `q(...)`? -/
def IsLiteral (cs : List Char) : Prop := ∃ body, cs = quote body

theorem isQuoted_iff : isQuoted cs = true ↔ IsLiteral cs := by
  constructor
  · intro h
    unfold isQuoted at h
    split at h
    · obtain ⟨body, rfl⟩ := List.getLast?_eq_some_iff.1 (eq_of_beq h)
      exact ⟨body, rfl⟩
    · cases h
  · rintro ⟨body, rfl⟩
    exact isQuoted_quote body

instance (cs : List Char) : Decidable (IsLiteral cs) := decidable_of_iff _ isQuoted_iff

/-- Does the text begin with a difference: with something that has no white space, a minus between
two spaces, and a character that is not white space? -/
def BeginsWithDifference (cs : List Char) : Prop :=
  ∃ left c rest, left ≠ [] ∧ (∀ x ∈ left, Text.isBlank x = false) ∧ Text.isBlank c = false ∧
    cs = left ++ ' ' :: '-' :: ' ' :: c :: rest

theorem startsWithDifference_iff : startsWithDifference cs = true ↔ BeginsWithDifference cs := by
  constructor
  · intro h
    rw [startsWithDifference, Bool.and_eq_true] at h
    obtain ⟨hleft, hrest⟩ := h
    split at hrest
    · next c rest hdrop =>
      refine ⟨cs.takeWhile (!Text.isBlank ·), c, rest, by simpa using hleft, fun x hx => ?_,
        by simpa using hrest, ?_⟩
      · simpa using List.mem_takeWhile_imp hx
      · rw [← hdrop, List.takeWhile_append_dropWhile]
    · cases hrest
  · rintro ⟨left, c, rest, hne, hleft, hc, rfl⟩
    have hall : ∀ x ∈ left, (!Text.isBlank x) = true := fun x hx => by simp [hleft x hx]
    have hspace : (!Text.isBlank ' ') = false := by decide
    rw [startsWithDifference, List.takeWhile_append_of_pos hall, List.dropWhile_append_of_pos hall,
      List.takeWhile_cons_of_neg (by simp [hspace]), List.dropWhile_cons_of_neg (by simp [hspace])]
    simp [hne, hc]

instance (cs : List Char) : Decidable (BeginsWithDifference cs) :=
  decidable_of_iff _ startsWithDifference_iff

/-! ### Values -/

/-- Is the text in the form in which values are published? -/
structure IsValueForm (cs : List Char) : Prop where
  parens : ∀ c ∈ cs, c = '(' ∨ c = ')' → IsLiteral cs
  breaks : ∀ c ∈ cs, Text.isBlank c = true ∨ c = '/' → IsLiteral cs ∨ BeginsWithDifference cs

theorem isValueForm_iff : IsValueForm cs ↔
    (cs.any isParen = true → IsLiteral cs) ∧
      (needsQuote cs = true → IsLiteral cs ∨ BeginsWithDifference cs) := by
  simp only [needsQuote, List.any_eq_true, isParen, Bool.or_eq_true, beq_iff_eq]
  constructor
  · intro h
    exact ⟨fun ⟨c, hc, hparen⟩ => h.parens c hc hparen, fun ⟨c, hc, hbreak⟩ => h.breaks c hc hbreak⟩
  · rintro ⟨hparens, hbreaks⟩
    exact ⟨fun c hc hparen => hparens ⟨c, hc, hparen⟩, fun c hc hbreak => hbreaks ⟨c, hc, hbreak⟩⟩

instance (cs : List Char) : Decidable (IsValueForm cs) := decidable_of_iff' _ isValueForm_iff

theorem IsLiteral.isValueForm (h : IsLiteral cs) : IsValueForm cs :=
  ⟨fun _ _ _ => h, fun _ _ _ => .inl h⟩

theorem escape_cons_of_paren (h : isParen c = true) :
    escape (c :: cs) = '\\' :: c :: escape cs := by
  rw [escape, List.flatMap_cons, if_pos h]
  rfl

theorem escape_cons_of_not_paren (h : isParen c = false) : escape (c :: cs) = c :: escape cs := by
  rw [escape, List.flatMap_cons, if_neg (by simp [h])]
  rfl

theorem escape_eq_self (h : cs.any isParen = false) : escape cs = cs := by
  induction cs with
  | nil => rfl
  | cons c cs ih =>
    rw [List.any_cons, Bool.or_eq_false_iff] at h
    rw [escape_cons_of_not_paren h.1, ih h.2]

/-- **Values in the form are left as they are, and all others are wrapped**, with their parentheses
escaped. -/
theorem valueChars_eq (cs : List Char) :
    valueChars cs = if IsValueForm cs then cs else quote (escape cs) := by
  by_cases hliteral : IsLiteral cs
  · rw [if_pos hliteral.isValueForm, valueChars_of_isQuoted (isQuoted_iff.2 hliteral)]
  · have hunquoted : isQuoted cs = false := Bool.eq_false_iff.2 fun h => hliteral (isQuoted_iff.1 h)
    cases hparens : cs.any isParen with
    | true =>
      rw [if_neg fun h => hliteral ((isValueForm_iff.1 h).1 hparens)]
      simp [valueChars, hparens, hunquoted, isQuoted_quote]
    | false =>
      have hvalue : valueChars cs =
          if (needsQuote cs && !startsWithDifference cs) = true then quote cs else cs := by
        simp [valueChars, hparens, hunquoted]
      have hform : IsValueForm cs ↔ ¬ (needsQuote cs && !startsWithDifference cs) = true := by
        simp [isValueForm_iff, hparens, hliteral, startsWithDifference_iff]
      rw [hvalue, escape_eq_self hparens]
      simp only [hform, ite_not]

/-- All values come into the form. -/
theorem isValueForm_valueChars (cs : List Char) : IsValueForm (valueChars cs) := by
  rw [valueChars_eq]
  split
  · assumption
  · exact IsLiteral.isValueForm ⟨escape cs, rfl⟩

/-- Publishing leaves exactly the values that are in the form. -/
theorem valueChars_eq_self_iff : valueChars cs = cs ↔ IsValueForm cs := by
  constructor
  · intro h
    rw [← h]
    exact isValueForm_valueChars cs
  · intro h
    rw [valueChars_eq, if_pos h]

theorem toList_ofText (s : String) : (ofText s).toList = valueChars s.toList :=
  String.toList_ofList

theorem ofText_eq_self_iff {s : String} : ofText s = s ↔ IsValueForm s.toList := by
  rw [← valueChars_eq_self_iff, ← toList_ofText, String.toList_inj]

/-! ### Keys and attributes -/

/-- Every character of a published key may stand in a key. -/
theorem isKeyBreak_of_mem_ofKey (h : c ∈ (ofKey key).toList) : isKeyBreak c = false := by
  rw [ofKey, String.toList_ofList] at h
  obtain ⟨x, -, rfl⟩ := List.mem_map.1 h
  split
  · decide
  · next hx => exact Bool.eq_false_iff.2 hx

theorem exists_ofKey_eq_of_mem_keys (h : key ∈ (ofAttributes data).keys) :
    ∃ k ∈ data.keys, ofKey k = key := by
  obtain ⟨e, he, rfl⟩ := List.mem_map.1 h
  obtain ⟨x, hx, rfl⟩ := exists_of_mem_ofAttributes he
  exact ⟨x.1, List.mem_map_of_mem hx, rfl⟩

/-- **Attributes that have been brought into the form stay as they are.** -/
theorem ofAttributes_ofAttributes (data : Attributes) :
    ofAttributes (ofAttributes data) = ofAttributes data := by
  refine ofAttributes_eq_self fun e he => ?_
  obtain ⟨x, -, rfl⟩ := exists_of_mem_ofAttributes he
  exact ⟨ofKey_ofKey x.1, ofAttribute_ofAttribute x.2⟩

theorem ofAttribute_eq_many_iff {a : Attribute} {out : List Scalar} :
    ofAttribute a = .many out ↔ ∃ items, a = .many items ∧ out = items.map ofScalar := by
  cases a with
  | one s => simp [ofAttribute]
  | many items => simp [ofAttribute, eq_comm]

/-- **A published list comes from one list, scalar by scalar.** -/
theorem get?_ofAttributes_eq_many_iff {out : List Scalar} :
    (ofAttributes data).get? key = some (.many out) ↔
      ∃ k items, lastKey? data key = some k ∧ data.get? k = some (.many items) ∧
        out = items.map ofScalar := by
  simp only [get?_ofAttributes, Option.bind_eq_some_iff, Option.map_eq_some_iff,
    ofAttribute_eq_many_iff]
  constructor
  · rintro ⟨k, hlast, a, hget, items, rfl, hout⟩
    exact ⟨k, items, hlast, hget, hout⟩
  · rintro ⟨k, items, hlast, hget, hout⟩
    exact ⟨k, hlast, .many items, hget, items, rfl, hout⟩

theorem eq_map_iff_getElem? {items out : List Scalar} : out = items.map ofScalar ↔
    out.length = items.length ∧ ∀ i : Nat, out[i]? = items[i]?.map ofScalar := by
  constructor
  · rintro rfl
    exact ⟨List.length_map .., fun i => List.getElem?_map ..⟩
  · rintro ⟨-, h⟩
    exact List.ext_getElem? fun i => by rw [h i, List.getElem?_map]

/-- **What is published is in a form that publishing keeps.** A value changes exactly if it is not
in this form, and comes into it; the attributes of a cluster come into it as well, with keys that
have neither white space nor semicolons. The lists among them are those of the greatest keys that
are published under a key, as long as before and each scalar in its place. -/
theorem ofAttributes_form :
    (∀ s, ofText (ofText s) = ofText s ∧ IsValueForm (ofText s).toList ∧
      (ofText s = s ↔ IsValueForm s.toList)) ∧
    ∀ data : Attributes,
      ofAttributes (ofAttributes data) = ofAttributes data ∧
      (∀ key ∈ (ofAttributes data).keys, ∀ c ∈ key.toList, Text.isBlank c = false ∧ c ≠ ';') ∧
      ∀ key out, (ofAttributes data).get? key = some (.many out) ↔
        ∃ k items, lastKey? data key = some k ∧ data.get? k = some (.many items) ∧
          out.length = items.length ∧ ∀ i : Nat, out[i]? = items[i]?.map ofScalar := by
  refine ⟨fun s => ?_, fun data => ⟨ofAttributes_ofAttributes data, ?_, fun key out => ?_⟩⟩
  · have hform : IsValueForm (ofText s).toList := by
      rw [toList_ofText]
      exact isValueForm_valueChars s.toList
    exact ⟨ofText_ofText s, hform, ofText_eq_self_iff⟩
  · intro key hkey c hc
    obtain ⟨k, -, rfl⟩ := exists_ofKey_eq_of_mem_keys hkey
    have hkeep := isKeyBreak_of_mem_ofKey hc
    rw [isKeyBreak, Bool.or_eq_false_iff] at hkeep
    exact ⟨hkeep.2, ne_of_beq_false hkeep.1⟩
  · simp only [get?_ofAttributes_eq_many_iff, eq_map_iff_getElem?]

/-- A note under a key with a space, and a list under a key with a semicolon in its place. -/
def notes : Attributes :=
  .ofList [("NOTE TEXT", .one (.text "old")),
    ("NOTE;TEXT", .many [.text "a b", .null, .text "%all - %bad", .text "f(x)"])]

/-- The semicolon comes after the space, so the list is published, each scalar in its place. -/
theorem ofAttributes_form_notes :
    (ofAttributes notes).get? "NOTE_TEXT" =
      some (.many [.text "q(a b)", .null, .text "%all - %bad", .text "q(f\\(x\\))"]) := by
  have hlast : lastKey? notes "NOTE_TEXT" = some "NOTE;TEXT" := by decide +kernel
  refine ((ofAttributes_form.2 notes).2.2 _ _).2 ⟨"NOTE;TEXT",
    [.text "a b", .null, .text "%all - %bad", .text "f(x)"], hlast, by decide +kernel, rfl, ?_⟩
  exact (eq_map_iff_getElem?.1 (by decide +kernel)).2

end Normal
end ClusterSync
