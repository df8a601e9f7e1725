/-
# Published attributes stay as they are

Publishing changes texts and keys, and what it has changed it does not change again: a value that
has been wrapped is not wrapped twice, and one that has not has no need of it
(`Normal.valueChars_valueChars`). So attributes that have been published are published as they
are (`Normal.published_published`). Other scalars are published with their kind and value, so
proper attributes stay proper (`Normal.isProper_published`).
-/

import ClusterSync.Proofs.Cluster.Documents

namespace ClusterSync
namespace Normal

variable {cs : List Char} {data : Attributes}

/-! ### Values and keys -/

theorem isQuoted_quote (cs : List Char) : isQuoted (quote cs) = true := by
  simp [quote, isQuoted]

theorem valueChars_of_isQuoted (h : isQuoted cs = true) : valueChars cs = cs := by
  simp [valueChars, h]

/-- **A value that has been published is published as it is.** -/
theorem valueChars_valueChars (cs : List Char) : valueChars (valueChars cs) = valueChars cs := by
  by_cases hparens : (cs.any isParen && !isQuoted cs) = true
  · -- Wrapped for its parentheses.
    have hvalue : valueChars cs = quote (escape cs) := by
      simp [valueChars, hparens, isQuoted_quote]
    rw [hvalue, valueChars_of_isQuoted (isQuoted_quote _)]
  · by_cases hneeds : (needsQuote cs && !isQuoted cs && !startsWithDifference cs) = true
    · have hvalue : valueChars cs = quote cs := by
        simp [valueChars, hparens, hneeds]
      rw [hvalue, valueChars_of_isQuoted (isQuoted_quote _)]
    · have hvalue : valueChars cs = cs := by
        simp [valueChars, hparens, hneeds]
      rw [hvalue, hvalue]

theorem ofText_ofText (s : String) : ofText (ofText s) = ofText s := by
  rw [ofText, ofText, String.toList_ofList, valueChars_valueChars]

theorem ofKey_ofKey (key : String) : ofKey (ofKey key) = ofKey key := by
  have hbreak : isKeyBreak '_' = false := by decide
  rw [ofKey, ofKey, String.toList_ofList, List.map_map]
  congr 1
  refine List.map_congr_left fun c _ => ?_
  by_cases hc : isKeyBreak c = true
  · simp [hc, hbreak]
  · simp [hc]

theorem ofScalar_ofScalar (s : Scalar) : ofScalar (ofScalar s) = ofScalar s := by
  cases s with
  | text s => exact congrArg Scalar.text (ofText_ofText s)
  | _ => rfl

theorem ofAttribute_ofAttribute (a : Attribute) : ofAttribute (ofAttribute a) = ofAttribute a := by
  cases a with
  | one s => exact congrArg Attribute.one (ofScalar_ofScalar s)
  | many items =>
    simp only [ofAttribute, List.map_map]
    exact congrArg Attribute.many (List.map_congr_left fun s _ => ofScalar_ofScalar s)

/-! ### Attributes -/

/-- An attribute as published comes from one of the attributes. -/
theorem exists_of_mem_ofAttributes {e : String × Attribute} (h : e ∈ (ofAttributes data).entries) :
    ∃ x ∈ data.entries, e = (ofKey x.1, ofAttribute x.2) := by
  obtain ⟨x, hx, rfl⟩ := List.mem_map.1 (Table.mem_of_mem_ofList h)
  exact ⟨x, hx, rfl⟩

theorem ofAttributes_eq_self
    (h : ∀ e ∈ data.entries, ofKey e.1 = e.1 ∧ ofAttribute e.2 = e.2) :
    ofAttributes data = data := by
  have hmap : data.entries.map (fun e => (ofKey e.1, ofAttribute e.2)) = data.entries := by
    refine (List.map_congr_left fun e he => ?_).trans (List.map_id _)
    exact Prod.ext (h e he).1 (h e he).2
  rw [ofAttributes, hmap, Table.ofList_entries]

theorem published_eq (data : Attributes) : published data =
    if (ofAttributes data).contains clusterKey then ofAttributes data
    else (ofAttributes data).insert clusterKey .blank := rfl

/-- What is published is what the attributes become, or the empty `CLUSTER`. -/
theorem mem_entries_published {e : String × Attribute} (h : e ∈ (published data).entries) :
    e ∈ (ofAttributes data).entries ∨ e = (clusterKey, .blank) := by
  rw [published_eq] at h
  split at h
  · exact .inl h
  · exact (Table.mem_insertEntry h).symm

theorem contains_published (data : Attributes) : (published data).contains clusterKey = true := by
  rw [published_eq]
  split
  · assumption
  · rw [Table.contains, Table.get?_insert, if_pos rfl]
    rfl

theorem entries_published_ne_nil (data : Attributes) : (published data).entries ≠ [] := by
  intro hnil
  have hcontains := contains_published data
  rw [Table.contains, Table.get?, hnil] at hcontains
  cases hcontains

/-- **Attributes that have been published are published as they are.** -/
theorem published_published (data : Attributes) : published (published data) = published data := by
  have hself : ofAttributes (published data) = published data := by
    refine ofAttributes_eq_self fun e he => ?_
    rcases mem_entries_published he with hmem | rfl
    · obtain ⟨x, -, rfl⟩ := exists_of_mem_ofAttributes hmem
      exact ⟨ofKey_ofKey x.1, ofAttribute_ofAttribute x.2⟩
    · exact ⟨by decide, by decide⟩
  rw [published_eq (published data), hself, if_pos (contains_published data)]

theorem isProper_ofAttribute {a : Attribute} (h : a.IsProper) : (ofAttribute a).IsProper := by
  have hscalar (s : Scalar) (hs : s.IsProper) : (ofScalar s).IsProper := by
    cases s with
    | text s => trivial
    | _ => exact hs
  cases a with
  | one s => exact hscalar s h
  | many items =>
    intro s hs
    obtain ⟨x, hx, rfl⟩ := List.mem_map.1 hs
    exact hscalar x (h x hx)

theorem isProper_published (h : data.IsProper) : (published data).IsProper := by
  intro e he
  rcases mem_entries_published he with hmem | rfl
  · obtain ⟨x, hx, rfl⟩ := exists_of_mem_ofAttributes hmem
    exact isProper_ofAttribute (h x hx)
  · trivial

end Normal

/-- **The body that is published for a cluster is read as what has been published.** -/
theorem Attributes.ofFile_body {data : Attributes} (h : data.IsProper) :
    Attributes.ofFile data.body = .ok (Normal.published data) :=
  Attributes.ofFile_document (Normal.isProper_published h) (Normal.entries_published_ne_nil data)

/-- Published attributes have the same body. -/
theorem Attributes.body_published (data : Attributes) :
    Attributes.body (Normal.published data) = data.body := by
  rw [body, Normal.published_published]
  rfl

end ClusterSync
