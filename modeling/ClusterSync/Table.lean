/-
# Tables

A table gives each of finitely many keys one value and lists its entries by
increasing key. It is kept as that list, so two tables with the same look-ups
are equal (`ext_get?`), and the order in which entries were put in cannot be
seen.

| operation | look-up of `k` afterwards |
| --- | --- |
| `insert k' v` | `v` if `k = k'` (`get?_insert`) |
| `erase k'` | nothing if `k = k'` (`get?_erase`) |
| `overlay s` | that of `s` where it has one (`get?_overlay`) |
| `filter p` | the old value if `p` holds of it (`get?_filter`) |
| `mapEntries f` | `f` of the key and the old value (`get?_mapEntries`) |
-/

namespace ClusterSync

universe u v w

/-- Finitely many keys with a value each, listed by increasing key. -/
structure Table (κ : Type u) [LT κ] (α : Type v) where
  entries : List (κ × α)
  sorted : entries.Pairwise fun a b => a.1 < b.1
deriving DecidableEq

namespace Table

section Lists

variable {κ : Type u} {α : Type v}

/-- The value at a key in a list of entries. -/
def lookup [DecidableEq κ] (k : κ) : List (κ × α) → Option α
  | [] => none
  | e :: es => if e.1 = k then some e.2 else lookup k es

/-- Puts an entry in front of the first greater key, in place of an equal one. -/
def insertEntry [LT κ] [DecidableLT κ] (k : κ) (v : α) : List (κ × α) → List (κ × α)
  | [] => [(k, v)]
  | e :: es =>
    if k < e.1 then (k, v) :: e :: es
    else if e.1 < k then e :: insertEntry k v es
    else (k, v) :: es

theorem lookup_eq_none_of_lt [LT κ] [LE κ] [Std.IsLinearOrder κ] [Std.LawfulOrderLT κ]
    [DecidableEq κ] {k : κ} {es : List (κ × α)} (h : ∀ e ∈ es, k < e.1) :
    lookup k es = none := by
  induction es with
  | nil => rfl
  | cons e es ih =>
    have hne : e.1 ≠ k := fun heq => by
      have := h e (List.mem_cons_self ..)
      rw [heq] at this
      exact Std.Irrefl.irrefl _ this
    rw [lookup, if_neg hne]
    exact ih fun x hx => h x (List.mem_cons_of_mem _ hx)

theorem mem_of_lookup [DecidableEq κ] {k : κ} {v : α} {es : List (κ × α)}
    (h : lookup k es = some v) : (k, v) ∈ es := by
  induction es with
  | nil => simp [lookup] at h
  | cons e es ih =>
    rw [lookup] at h
    split at h
    · next heq =>
      obtain rfl := Option.some.inj h
      subst heq
      exact List.mem_cons_self ..
    · exact List.mem_cons_of_mem _ (ih h)

theorem mem_insertEntry [LT κ] [DecidableLT κ] {k : κ} {v : α} {es : List (κ × α)} {x : κ × α}
    (h : x ∈ insertEntry k v es) : x = (k, v) ∨ x ∈ es := by
  induction es with
  | nil => simpa [insertEntry] using h
  | cons e es ih =>
    unfold insertEntry at h
    split at h
    · simpa using h
    · split at h
      · rcases List.mem_cons.1 h with rfl | h
        · exact .inr (List.mem_cons_self ..)
        · exact (ih h).imp_right (List.mem_cons_of_mem _)
      · rcases List.mem_cons.1 h with rfl | h
        · exact .inl rfl
        · exact .inr (List.mem_cons_of_mem _ h)

theorem sorted_insertEntry [LT κ] [DecidableLT κ] [LE κ] [Std.IsLinearOrder κ]
    [Std.LawfulOrderLT κ] (k : κ) (v : α) {es : List (κ × α)}
    (h : es.Pairwise fun a b => a.1 < b.1) :
    (insertEntry k v es).Pairwise fun a b => a.1 < b.1 := by
  induction es with
  | nil => simp [insertEntry]
  | cons e es ih =>
    obtain ⟨he, hes⟩ := List.pairwise_cons.1 h
    unfold insertEntry
    split
    · next hk =>
      refine List.pairwise_cons.2 ⟨fun x hx => ?_, h⟩
      rcases List.mem_cons.1 hx with rfl | hx
      · exact hk
      · exact Std.lt_trans hk (he x hx)
    · next hk =>
      split
      · next hlt =>
        refine List.pairwise_cons.2 ⟨fun x hx => ?_, ih hes⟩
        rcases mem_insertEntry hx with rfl | hx
        · exact hlt
        · exact he x hx
      · next hle =>
        have heq : e.1 = k := Std.Trichotomous.trichotomous _ _ hle hk
        exact List.pairwise_cons.2 ⟨fun x hx => heq ▸ he x hx, hes⟩

theorem lookup_insertEntry [LT κ] [DecidableLT κ] [LE κ] [Std.IsLinearOrder κ]
    [Std.LawfulOrderLT κ] [DecidableEq κ] (k k' : κ) (v : α) (es : List (κ × α)) :
    lookup k (insertEntry k' v es) = if k' = k then some v else lookup k es := by
  induction es with
  | nil => simp [insertEntry, lookup]
  | cons e es ih =>
    unfold insertEntry
    split
    · simp [lookup]
    · next hk =>
      split
      · next hlt =>
        have hne : e.1 ≠ k' := fun heq => Std.Irrefl.irrefl _ (heq ▸ hlt)
        by_cases hek : e.1 = k
        · subst hek
          simp [lookup, Ne.symm hne]
        · simp [lookup, ih, hek]
      · next hle =>
        have heq : e.1 = k' := Std.Trichotomous.trichotomous _ _ hle hk
        by_cases hkk : k' = k
        · simp [lookup, hkk]
        · simp [lookup, hkk, heq]

theorem eq_of_lookup_eq [LT κ] [LE κ] [Std.IsLinearOrder κ] [Std.LawfulOrderLT κ]
    [DecidableEq κ] {es fs : List (κ × α)} (hes : es.Pairwise fun a b => a.1 < b.1)
    (hfs : fs.Pairwise fun a b => a.1 < b.1) (h : ∀ k, lookup k es = lookup k fs) : es = fs := by
  induction es generalizing fs with
  | nil =>
    cases fs with
    | nil => rfl
    | cons f fs => simpa [lookup] using h f.1
  | cons e es ih =>
    obtain ⟨he, hes⟩ := List.pairwise_cons.1 hes
    cases fs with
    | nil => simpa [lookup] using h e.1
    | cons f fs =>
      obtain ⟨hf, hfs⟩ := List.pairwise_cons.1 hfs
      have hk : e.1 = f.1 := by
        have h1 := mem_of_lookup ((h e.1).symm.trans (by simp [lookup]) : _ = some e.2)
        have h2 := mem_of_lookup ((h f.1).trans (by simp [lookup]) : _ = some f.2)
        rcases List.mem_cons.1 h1 with h1 | h1
        · exact congrArg Prod.fst h1
        rcases List.mem_cons.1 h2 with h2 | h2
        · exact (congrArg Prod.fst h2).symm
        exact absurd (Std.lt_trans (hf _ h1) (he _ h2)) (Std.Irrefl.irrefl _)
      have hv : e.2 = f.2 := by
        have := h e.1
        simpa [lookup, hk] using this
      have htail : es = fs := by
        refine ih hes hfs fun k => ?_
        by_cases hek : e.1 = k
        · subst hek
          rw [lookup_eq_none_of_lt he, lookup_eq_none_of_lt (by simpa [hk] using hf)]
        · have := h k
          rwa [lookup, if_neg hek, lookup, if_neg (hk ▸ hek)] at this
      rw [htail, show e = f from Prod.ext hk hv]

end Lists

variable {κ : Type u} [LT κ] {α : Type v} {β : Type w}

/-- The table with no entries. -/
def empty : Table κ α := ⟨[], .nil⟩

instance : Inhabited (Table κ α) := ⟨empty⟩

/-- The value at a key. -/
def get? [DecidableEq κ] (t : Table κ α) (k : κ) : Option α := lookup k t.entries

/-- Is there a value at this key? -/
def contains [DecidableEq κ] (t : Table κ α) (k : κ) : Bool := (t.get? k).isSome

/-- The keys, increasing. -/
def keys (t : Table κ α) : List κ := t.entries.map (·.1)

/-- How many entries there are. -/
def size (t : Table κ α) : Nat := t.entries.length

/-- Is there no entry? -/
def isEmpty (t : Table κ α) : Bool := t.entries.isEmpty

/-- The entries that pass a test. -/
def filter (p : κ → α → Bool) (t : Table κ α) : Table κ α :=
  ⟨t.entries.filter fun e => p e.1 e.2, t.sorted.filter _⟩

/-- The table without an entry at this key. -/
def erase [DecidableEq κ] (t : Table κ α) (k : κ) : Table κ α := t.filter fun k' _ => k' ≠ k

/-- The same keys with new values, which may depend on the key. -/
def mapEntries (f : κ → α → β) (t : Table κ α) : Table κ β :=
  ⟨t.entries.map fun e => (e.1, f e.1 e.2), by
    simpa [List.pairwise_map] using t.sorted⟩

/-- The same keys with new values. -/
def mapValues (f : α → β) (t : Table κ α) : Table κ β := t.mapEntries fun _ => f

@[simp] theorem get?_empty [DecidableEq κ] (k : κ) : (empty : Table κ α).get? k = none := rfl

theorem get?_filter [DecidableEq κ] (p : κ → α → Bool) (t : Table κ α) (k : κ)
    [LE κ] [Std.IsLinearOrder κ] [Std.LawfulOrderLT κ] :
    (t.filter p).get? k = (t.get? k).filter (p k) := by
  obtain ⟨es, hes⟩ := t
  simp only [get?, filter]
  induction es with
  | nil => rfl
  | cons e es ih =>
    obtain ⟨he, hes⟩ := List.pairwise_cons.1 hes
    by_cases hek : e.1 = k
    · subst hek
      by_cases hp : p e.1 e.2
      · simp [lookup, hp, Option.filter]
      · rw [List.filter_cons_of_neg (by simpa using hp), ih hes,
          lookup_eq_none_of_lt he]
        simp [lookup, hp, Option.filter]
    · by_cases hp : p e.1 e.2
      · rw [List.filter_cons_of_pos (by simpa using hp)]
        simp [lookup, hek, ih hes]
      · rw [List.filter_cons_of_neg (by simpa using hp)]
        simp [lookup, hek, ih hes]

theorem get?_erase [DecidableEq κ] [LE κ] [Std.IsLinearOrder κ] [Std.LawfulOrderLT κ]
    (t : Table κ α) (k k' : κ) :
    (t.erase k').get? k = if k = k' then none else t.get? k := by
  rw [erase, get?_filter]
  by_cases h : k = k' <;> cases hv : t.get? k <;> simp [h, Option.filter]

theorem get?_mapEntries [DecidableEq κ] (f : κ → α → β) (t : Table κ α) (k : κ) :
    (t.mapEntries f).get? k = (t.get? k).map (f k) := by
  obtain ⟨es, hes⟩ := t
  simp only [get?, mapEntries]
  clear hes
  induction es with
  | nil => rfl
  | cons e es ih =>
    by_cases hek : e.1 = k
    · subst hek
      simp [lookup]
    · simp [lookup, hek, ih]

theorem get?_mapValues [DecidableEq κ] (f : α → β) (t : Table κ α) (k : κ) :
    (t.mapValues f).get? k = (t.get? k).map f :=
  get?_mapEntries (fun _ => f) t k

theorem ext_get? [DecidableEq κ] [LE κ] [Std.IsLinearOrder κ] [Std.LawfulOrderLT κ]
    {s t : Table κ α} (h : ∀ k, s.get? k = t.get? k) : s = t := by
  obtain ⟨es, hes⟩ := s
  obtain ⟨fs, hfs⟩ := t
  congr
  exact eq_of_lookup_eq hes hfs h

theorem mem_keys_iff [DecidableEq κ] (t : Table κ α) (k : κ) :
    k ∈ t.keys ↔ (t.get? k).isSome := by
  obtain ⟨es, hes⟩ := t
  simp only [keys, get?]
  clear hes
  induction es with
  | nil => simp [lookup]
  | cons e es ih =>
    by_cases hek : e.1 = k
    · simp [lookup, hek]
    · simp [lookup, hek, Ne.symm hek, ← ih]

variable [DecidableLT κ] [LE κ] [Std.IsLinearOrder κ] [Std.LawfulOrderLT κ]

/-- The table with this value at this key. -/
def insert (t : Table κ α) (k : κ) (v : α) : Table κ α :=
  ⟨insertEntry k v t.entries, sorted_insertEntry k v t.sorted⟩

/-- The table with these entries put in one after another: the last of a key counts. -/
def overlayList (t : Table κ α) (es : List (κ × α)) : Table κ α :=
  es.foldl (fun t e => t.insert e.1 e.2) t

/-- The table with these entries; the last of a key counts. -/
def ofList (es : List (κ × α)) : Table κ α := empty.overlayList es

/-- The entries of both tables; where both have a key, the second one's value. -/
def overlay (s t : Table κ α) : Table κ α := s.overlayList t.entries

theorem get?_insert [DecidableEq κ] (t : Table κ α) (k k' : κ) (v : α) :
    (t.insert k' v).get? k = if k' = k then some v else t.get? k :=
  lookup_insertEntry k k' v t.entries

theorem get?_overlay [DecidableEq κ] (s t : Table κ α) (k : κ) :
    (s.overlay t).get? k = (t.get? k).or (s.get? k) := by
  obtain ⟨es, hes⟩ := t
  simp only [overlay, overlayList, get?]
  induction es generalizing s with
  | nil => simp [lookup]
  | cons e es ih =>
    obtain ⟨he, hes⟩ := List.pairwise_cons.1 hes
    rw [List.foldl_cons, ih (s.insert e.1 e.2) hes]
    change (lookup k es).or ((s.insert e.1 e.2).get? k) = _
    rw [get?_insert, lookup]
    by_cases hek : e.1 = k
    · subst hek
      simp [lookup_eq_none_of_lt he]
    · simp [hek, get?]

end Table
end ClusterSync
