/-
# No key of an entry is passed over

A reader of entries takes what it knows and does not look at the rest, so a key that is misspelled
could go unnoticed. What keeps this from happening is the last step: every key that is left has to
be one of the type's (`SourceEntry.unknownKey?`). So all keys of an entry that is accepted are texts
(`SourceEntry.keys_of_ofPairs`), and the reading can be followed on names with their values
(`Value.keyed`).

Policy and name are taken out, then the type; all that is left is collected as it stands
(`EntryType.collect_keyed`). From there the entry is told key by key: what is written for it is what
has been read, and where nothing was said, what is usual (`Origin.lookup_fields`,
`SourceEntry.lookup_fields`).
-/

import ClusterSync.Proofs.Config.Entries

namespace ClusterSync

open Yaml

/-! ### Names with their values -/

namespace Yaml.Value

variable {named : List (String × Value)} {key s : String} {v : Value}

theorem eq_text_of_beq (h : (v == .text s) = true) : v = .text s := by
  cases v with
  | text t => exact congrArg text (beq_iff_eq.1 (h : (t == s) = true))
  | _ => cases h

/-- Names with their values, as entries of a mapping. -/
def keyed (named : List (String × Value)) : Pairs := named.map fun e => (.text e.1, e.2)

/-- A mapping whose keys are all texts has names for keys. -/
theorem exists_keyed {entries : Pairs} (h : ∀ e ∈ entries, ∃ s, e.1 = .text s) :
    ∃ named, entries = keyed named := by
  induction entries with
  | nil => exact ⟨[], rfl⟩
  | cons e entries ih =>
    obtain ⟨s, hs⟩ := h e (List.mem_cons_self ..)
    obtain ⟨named, rfl⟩ := ih fun f hf => h f (List.mem_cons_of_mem _ hf)
    exact ⟨(s, e.2) :: named, congrArg (· :: _) (Prod.ext hs rfl)⟩

theorem find?_keyed (key : String) (named : List (String × Value)) :
    find? key (keyed named) = named.lookup key :=
  (find?_entriesOf id key named).trans Option.map_id_apply

theorem nodup_of_distinctKeys (h : distinctKeys (keyed named) = true) :
    (named.map (·.1)).Nodup := (distinctKeys_entriesOf id named).1 h

theorem eraseP_eq_filter (h : (named.map (·.1)).Nodup) (key : String) :
    named.eraseP (·.1 == key) = named.filter (·.1 != key) := by
  induction named with
  | nil => rfl
  | cons e named ih =>
    obtain ⟨hfresh, hnd⟩ := List.nodup_cons.1 h
    by_cases hkey : e.1 = key
    · have hrest : named.filter (·.1 != key) = named := List.filter_eq_self.2 fun f hf =>
        bne_iff_ne.2 fun heq => hfresh (List.mem_map.2 ⟨f, hf, heq.trans hkey.symm⟩)
      simp [hkey, hrest]
    · simp [hkey, ih hnd]

/-- Taking out a key leaves the other names. -/
theorem exists_takeOut_keyed (key : String) (h : (named.map (·.1)).Nodup) : ∃ rest,
    takeOut key (keyed named) = keyed rest ∧ rest.Perm (named.filter (·.1 != key)) := by
  obtain ⟨rest, hrest, hleft⟩ := exists_takeOut_entriesOf id key named
  exact ⟨rest, hrest, hleft.trans (.of_eq (eraseP_eq_filter h key))⟩

/-- Whatever is not under the key stays. -/
theorem mem_takeOut {entries : Pairs} {e : Value × Value} (key : String) (h : e ∈ entries) :
    e.1 = .text key ∨ e ∈ takeOut key entries := by
  by_cases hkey : (e.1 == .text key) = true
  · exact .inl (eq_text_of_beq hkey)
  · have hkept : e ∈ entries.eraseP fun f => f.1 == .text key :=
      (List.mem_eraseP_of_neg (p := fun f : Value × Value => f.1 == .text key) hkey).2 h
    exact .inr ((takeOut_perm key entries).mem_iff.2 hkept)

theorem takeOut_subset {entries : Pairs} : takeOut key entries ⊆ entries := fun _ h =>
  List.eraseP_subset ((takeOut_perm key entries).mem_iff.1 h)

theorem mem_of_lookup (h : named.lookup key = some v) : (key, v) ∈ named := by
  rw [List.lookup_eq_some_iff] at h
  obtain ⟨before, after, rfl, -⟩ := h
  simp

theorem lookup_filter_ne (h : s ≠ key) : (named.filter (·.1 != key)).lookup s = named.lookup s := by
  induction named with
  | nil => rfl
  | cons e named ih =>
    by_cases hkey : e.1 = key
    · have hne : (s == e.1) = false := beq_eq_false_iff_ne.2 fun heq => h (heq.trans hkey)
      rw [List.filter_cons_of_neg (by simp [hkey]), List.lookup_cons, hne, ih]
    · rw [List.filter_cons_of_pos (by simp [hkey]), List.lookup_cons, List.lookup_cons, ih]

/-- What stands under a key, if it is more than null. -/
def nonNull? : Option Value → Option Value
  | some .null => none
  | v => v

theorem nonNull?_eq_some_iff {found : Option Value} :
    nonNull? found = some v ↔ found = some v ∧ v ≠ .null := by
  unfold nonNull?
  split
  · constructor
    · nofun
    · rintro ⟨h, hne⟩
      exact absurd (Option.some.inj h).symm hne
  · next hnull =>
    refine (and_iff_left_of_imp fun h => ?_).symm
    rintro rfl
    exact hnull h

/-! ### Values without tags -/

theorem isTagged_of_mem {entries : Pairs} (h : anyEntryTagged entries = false) :
    ∀ e ∈ entries, e.1.isTagged = false ∧ e.2.isTagged = false := by
  induction entries with
  | nil => exact fun _ he => absurd he List.not_mem_nil
  | cons e entries ih =>
    rw [anyEntryTagged, Bool.or_eq_false_iff, Bool.or_eq_false_iff] at h
    rintro f hf
    rcases List.mem_cons.1 hf with rfl | hf
    · exact h.1
    · exact ih h.2 f hf

/-- Without a tag, a value is a text only if it is written as one. -/
theorem eq_text_of_asText? (hv : v.isTagged = false) (h : v.asText? = some s) : v = .text s := by
  cases v with
  | text t => exact congrArg text (Option.some.inj h)
  | tagged tag w => rw [isTagged] at hv; cases hv
  | _ => cases h

end Yaml.Value

theorem Policy.eq_text_of_ofValue {v : Value} {p : Policy} (hv : v.isTagged = false)
    (h : Policy.ofValue v = .ok p) : v = .text p.name := by
  cases v with
  | text s =>
    rw [ofValue, named] at h
    split at h
    · next q hq =>
      obtain rfl := Except.ok.inj h
      have hname : (q.name == s) = true := List.find?_some (p := fun p : Policy => p.name == s) hq
      rw [beq_iff_eq.1 hname]
    · cases h
  | tagged tag w => rw [Value.isTagged] at hv; cases hv
  | _ => cases h

namespace EntryType

variable {t : EntryType} {found all named : List (String × Value)} {key : String} {v : Value}

theorem eq_text_of_ofValue (hv : v.isTagged = false) (h : ofValue v = .ok t) :
    v = .text t.name := by
  rw [ofValue] at h
  split at h
  · next s hs =>
    split at h
    · next u hu =>
      obtain rfl := Except.ok.inj h
      have hname : (u.name == s) = true := 
        List.find?_some (p := fun u : EntryType => u.name == s) hu
      rw [Value.eq_text_of_asText? hv hs, beq_iff_eq.1 hname]
    · cases h
  · cases h

/-- May a type have this key with this value? -/
def Takes (t : EntryType) (f : String × Value) : Prop :=
  ∃ kind, t.fields.find? (·.1 == f.1) = some (f.1, kind) ∧ kind.admits f.2 = true

theorem Takes.mem_fieldNames {f : String × Value} (h : t.Takes f) : f.1 ∈ t.fieldNames := by
  obtain ⟨kind, hkind, -⟩ := h
  exact List.mem_map.2 ⟨_, List.mem_of_find?_eq_some hkind, rfl⟩

theorem exists_field_of_mem_fieldNames (h : key ∈ t.fieldNames) :
    ∃ kind, t.fields.find? (·.1 == key) = some (key, kind) := by
  obtain ⟨f, hf, hkey⟩ := List.mem_map.1 h
  have hsome : (t.fields.find? (·.1 == key)).isSome :=
    List.find?_isSome.2 ⟨f, hf, beq_iff_eq.2 hkey⟩
  obtain ⟨g, hg⟩ := Option.isSome_iff_exists.1 hsome
  have hname : (g.1 == key) = true :=
    List.find?_some (p := fun g : String × FieldKind => g.1 == key) hg
  exact ⟨g.2, by rw [hg, ← beq_iff_eq.1 hname]⟩

/-- **Keys of a type are collected as they stand**, and each has a value that it may have. -/
theorem collect_keyed (hnames : ∀ f ∈ named, f.1 ∈ t.fieldNames)
    (h : t.collect found (Value.keyed named) = .ok all) :
    all = found ++ named ∧ ∀ f ∈ named, t.Takes f := by
  induction named generalizing found with
  | nil =>
    obtain rfl := Except.ok.inj h
    exact ⟨(List.append_nil _).symm, fun _ hf => absurd hf List.not_mem_nil⟩
  | cons f named ih =>
    obtain ⟨kind, hkind⟩ := exists_field_of_mem_fieldNames (hnames f (List.mem_cons_self ..))
    have hfield : t.field (.text f.1) = .ok (some (f.1, kind)) := congrArg Except.ok hkind
    change t.collect found ((.text f.1, f.2) :: Value.keyed named) = .ok all at h
    rw [collect, hfield] at h
    simp only [bind, Except.bind] at h
    split at h
    · cases h
    · split at h
      · next hadmits =>
        obtain ⟨rfl, hrest⟩ := ih (fun g hg => hnames g (List.mem_cons_of_mem _ hg)) h
        refine ⟨by simp, List.forall_mem_cons.2 ⟨⟨kind, hkind, hadmits⟩, hrest⟩⟩
      · cases h

/-- The value that a key has where an entry of the type says nothing. -/
def usual? (t : EntryType) (key : String) : Option Value :=
  if key = "dir" ∧ (t = .git ∨ t = .svn) then some (.text "") else none

end EntryType

namespace Origin

variable {t : EntryType} {o : Origin} {named : List (String × Value)} {key s : String}

/-! ### Origins, key by key -/

theorem mem_fieldNames_of_lookup (htakes : ∀ f ∈ named, t.Takes f) (h : named.lookup key ≠ none) :
    key ∈ t.fieldNames := by
  obtain ⟨v, hv⟩ := Option.ne_none_iff_exists'.1 h
  exact (htakes _ (Value.mem_of_lookup hv)).mem_fieldNames

/-- What a type takes under one of its keys is of the kind of that key. -/
theorem admits_of_lookup (htakes : ∀ f ∈ named, t.Takes f) {kind : FieldKind} {v : Value}
    (hkind : t.fields.find? (·.1 == key) = some (key, kind)) (h : named.lookup key = some v) :
    kind.admits v = true := by
  obtain ⟨other, hother, hadmits⟩ := htakes _ (Value.mem_of_lookup h)
  obtain ⟨-, rfl⟩ := Prod.mk.inj (Option.some.inj (hkind.symm.trans hother))
  exact hadmits

variable (htakes : ∀ f ∈ named, t.Takes f)
include htakes

theorem lookup_textField (hkind : t.fields.find? (·.1 == key) = some (key, .text))
    (h : textField named key = .ok s) :
    Value.nonNull? (named.lookup key) = some (.text s) := by
  rw [textField, textField?] at h
  cases hlookup : named.lookup key with
  | none =>
    rw [hlookup] at h
    cases h
  | some v =>
    have hadmits := admits_of_lookup htakes hkind hlookup
    rw [hlookup] at h
    cases v with
    | text r => exact congrArg (some ∘ Value.text) (Except.ok.inj h)
    | _ => cases hadmits

theorem lookup_usualText (hkind : t.fields.find? (·.1 == key) = some (key, .text)) :
    (Value.nonNull? (named.lookup key)).or (some (.text "")) =
      some (.text ((textField? named key).getD "")) := by
  rw [textField?]
  cases hlookup : named.lookup key with
  | none => rfl
  | some v =>
    have hadmits := admits_of_lookup htakes hkind hlookup
    cases v with
    | text r => rfl
    | _ => cases hadmits

theorem lookup_optionalText (hkind : t.fields.find? (·.1 == key) = some (key, .optionalText)) :
    Value.nonNull? (named.lookup key) = (textField? named key).map .text := by
  rw [textField?]
  cases hlookup : named.lookup key with
  | none => rfl
  | some v =>
    have hadmits := admits_of_lookup htakes hkind hlookup
    cases v with
    | null => rfl
    | text r => rfl
    | _ => cases hadmits

theorem lookup_optionalWord (hkind : t.fields.find? (·.1 == key) = some (key, .optionalWord)) :
    Value.nonNull? (named.lookup key) = (wordField? named key).map fun w => .int w.toNat := by
  rw [wordField?]
  cases hlookup : named.lookup key with
  | none => rfl
  | some v =>
    have hadmits := admits_of_lookup htakes hkind hlookup
    cases v with
    | null => rfl
    | int i =>
      rw [FieldKind.admits, Bool.and_eq_true, decide_eq_true_eq, decide_eq_true_eq] at hadmits
      have hnat : ((UInt64.ofNat i.toNat).toNat : Int) = i := by
        rw [UInt64.toNat_ofNat']
        omega
      exact congrArg (some ∘ Value.int) hnat.symm
    | _ => cases hadmits

omit htakes

/-- Nothing is written under a key that the type does not have. -/
theorem lookup_fields_of_notMem (h : key ∉ o.type.fieldNames) : o.fields.lookup key = none := by
  refine List.lookup_eq_none_iff.2 fun f hf => bne_iff_ne.2 fun heq => h ?_
  obtain ⟨kind, hkind, -⟩ := o.has_fields f hf
  exact heq ▸ List.mem_map.2 ⟨_, List.mem_of_find?_eq_some hkind, rfl⟩

theorem usual?_of_notMem (h : key ∉ t.fieldNames) : t.usual? key = none := by
  refine if_neg ?_
  rintro ⟨rfl, rfl | rfl⟩ <;> exact h (by decide)

theorem type_of_ofFields (h : ofFields named t = .ok o) : o.type = t := by
  cases t with
  | directory =>
    obtain ⟨_, -, h⟩ := bind_eq_ok_iff.1 h
    exact Except.ok.inj h ▸ rfl
  | git =>
    obtain ⟨_, -, h⟩ := bind_eq_ok_iff.1 h
    exact Except.ok.inj h ▸ rfl
  | svn =>
    obtain ⟨_, -, h⟩ := bind_eq_ok_iff.1 h
    exact Except.ok.inj h ▸ rfl
  | listing =>
    obtain ⟨_, -, h⟩ := bind_eq_ok_iff.1 h
    obtain ⟨_, -, h⟩ := bind_eq_ok_iff.1 h
    exact Except.ok.inj h ▸ rfl
  | stamp => exact Except.ok.inj h ▸ rfl
  | membership => exact Except.ok.inj h ▸ rfl

/-- **What is written for an origin is what has been read**, under each key, and what is usual
where nothing was said. -/
theorem lookup_fields (htakes : ∀ f ∈ named, t.Takes f) (h : ofFields named t = .ok o)
    (key : String) : (o.fields.lookup key).map Field.value =
      (Value.nonNull? (named.lookup key)).or (t.usual? key) := by
  suffices hknown : ∀ key ∈ t.fieldNames, (o.fields.lookup key).map Field.value =
      (Value.nonNull? (named.lookup key)).or (t.usual? key) by
    by_cases hkey : key ∈ t.fieldNames
    · exact hknown key hkey
    · rw [lookup_fields_of_notMem (type_of_ofFields h ▸ hkey), usual?_of_notMem hkey,
        Classical.not_not.1 (mt (mem_fieldNames_of_lookup htakes) hkey)]
      rfl
  cases t with
  | directory =>
    rw [ofFields] at h
    obtain ⟨path, hpath, h⟩ := bind_eq_ok_iff.1 h
    obtain rfl := Except.ok.inj h
    intro key hkey
    obtain rfl := List.mem_singleton.1 hkey
    rw [lookup_textField htakes rfl hpath]
    rfl
  | git =>
    obtain ⟨repo, hrepo, h⟩ := bind_eq_ok_iff.1 h
    obtain rfl := Except.ok.inj h
    intro key hkey
    simp only [EntryType.fieldNames, EntryType.fields, List.map_cons, List.map_nil, List.mem_cons,
      List.not_mem_nil, or_false] at hkey
    rcases hkey with rfl | rfl | rfl
    · rw [lookup_textField htakes rfl hrepo]
      rfl
    · exact (lookup_usualText htakes rfl).symm
    · rw [lookup_optionalText htakes rfl]
      cases textField? named "branch" <;> rfl
  | svn =>
    obtain ⟨repo, hrepo, h⟩ := bind_eq_ok_iff.1 h
    obtain rfl := Except.ok.inj h
    intro key hkey
    simp only [EntryType.fieldNames, EntryType.fields, List.map_cons, List.map_nil, List.mem_cons,
      List.not_mem_nil, or_false] at hkey
    rcases hkey with rfl | rfl
    · rw [lookup_textField htakes rfl hrepo]
      rfl
    · exact (lookup_usualText htakes rfl).symm
  | listing =>
    obtain ⟨url, hurl, h⟩ := bind_eq_ok_iff.1 h
    obtain ⟨filter, hfilter, h⟩ := bind_eq_ok_iff.1 h
    obtain rfl := Except.ok.inj h
    intro key hkey
    simp only [EntryType.fieldNames, EntryType.fields, List.map_cons, List.map_nil, List.mem_cons,
      List.not_mem_nil, or_false] at hkey
    rcases hkey with rfl | rfl | rfl
    · rw [lookup_textField htakes rfl hurl]
      rfl
    · rw [lookup_textField htakes rfl hfilter]
      rfl
    · rw [lookup_optionalWord htakes rfl]
      cases wordField? named "timeout_secs" <;> rfl
  | stamp =>
    obtain rfl := Except.ok.inj h
    exact fun key hkey => absurd hkey List.not_mem_nil
  | membership =>
    obtain rfl := Except.ok.inj h
    exact fun key hkey => absurd hkey List.not_mem_nil

end Origin

namespace SourceEntry

variable {entries : Pairs} {named : List (String × Value)} {e : SourceEntry} {o : Origin}
  {key : String}

/-! ### Entries, key by key -/

/-- The policy that a mapping tells. -/
def policyOf (entries : Pairs) : Read Policy :=
  match Value.find? "policy" entries with
  | some v => (Policy.ofValue v).mapError fun _ => .invalidPolicy
  | none => .ok .merge

/-- The name that a mapping tells, if it has one. -/
def nameOf (entries : Pairs) : Read (Option String) :=
  match Value.find? "name" entries with
  | some v =>
    match v.asText? with
    | some s => .ok (some s)
    | none => .error .invalidName
  | none => .ok none

/-- An entry is told part by part. -/
theorem ofPairs_eq (entries : Pairs) : ofPairs entries = (do
    let policy ← policyOf entries
    let name ← nameOf (Value.takeOut "policy" entries)
    let rest := Value.takeOut "name" (Value.takeOut "policy" entries)
    let origin ← originOf rest
    match unknownKey? origin.type rest with
    | some key => throw (.unknownKey key origin.type.name origin.type.fieldNames)
    | none => return { origin, policy, name }) := by
  dsimp only [ofPairs, policyOf, nameOf]
  cases Value.find? "name" (Value.takeOut "policy" entries) with
  | none => cases Value.find? "policy" entries <;> rfl
  | some v =>
    dsimp only
    cases v.asText? <;> cases Value.find? "policy" entries <;> rfl

/-- What a mapping that is accepted has told. -/
theorem ofPairs_cases (h : ofPairs entries = .ok e) :
    policyOf entries = .ok e.policy ∧
    nameOf (Value.takeOut "policy" entries) = .ok e.name ∧
    originOf (Value.takeOut "name" (Value.takeOut "policy" entries)) = .ok e.origin ∧
    unknownKey? e.origin.type (Value.takeOut "name" (Value.takeOut "policy" entries)) = none := by
  rw [ofPairs_eq] at h
  obtain ⟨policy, hpolicy, h⟩ := bind_eq_ok_iff.1 h
  obtain ⟨name, hname, h⟩ := bind_eq_ok_iff.1 h
  obtain ⟨origin, horigin, h⟩ := bind_eq_ok_iff.1 h
  split at h
  · cases h
  · next hunknown =>
    obtain rfl := Except.ok.inj h
    exact ⟨hpolicy, hname, horigin, hunknown⟩

/-- Without tags, every key that is known to a type is a text. -/
theorem exists_text_of_unknownKey? {t : EntryType} (h : unknownKey? t entries = none)
    {f : Value × Value} (hf : f ∈ entries) (hplain : f.1.isTagged = false) :
    ∃ key, f.1 = .text key ∧ (key = typeKey ∨ key ∈ t.fieldNames) := by
  have hknown := List.find?_eq_none.1 h f.1 (List.mem_map_of_mem hf)
  cases htext : f.1.asText? with
  | none =>
    rw [htext] at hknown
    exact absurd rfl hknown
  | some s =>
    rw [htext] at hknown
    exact ⟨s, Value.eq_text_of_asText? hplain htext, by simpa [or_iff_not_imp_left] using hknown⟩

/-- **All keys of a mapping that is accepted are texts.** -/
theorem keys_of_ofPairs (untagged : Value.anyEntryTagged entries = false)
    (h : ofPairs entries = .ok e) : ∀ f ∈ entries, ∃ key, f.1 = .text key := by
  intro f hf
  obtain ⟨-, -, -, hunknown⟩ := ofPairs_cases h
  rcases Value.mem_takeOut "policy" hf with hpolicy | hf
  · exact ⟨_, hpolicy⟩
  rcases Value.mem_takeOut "name" hf with hname | hleft
  · exact ⟨_, hname⟩
  have hplain := (Value.isTagged_of_mem untagged f (Value.takeOut_subset hf)).1
  obtain ⟨key, hkey, -⟩ := exists_text_of_unknownKey? hunknown hleft hplain
  exact ⟨key, hkey⟩

/-- The policy that is told, or the usual one. -/
theorem lookup_policy (untagged : ∀ f ∈ named, f.2.isTagged = false) {p : Policy}
    (h : policyOf (Value.keyed named) = .ok p) :
    some (.text p.name) = (Value.nonNull? (named.lookup "policy")).or
      (some (.text Policy.merge.name)) := by
  rw [policyOf, Value.find?_keyed] at h
  cases hlookup : named.lookup "policy" with
  | none =>
    rw [hlookup] at h
    obtain rfl := Except.ok.inj h
    rfl
  | some v =>
    rw [hlookup] at h
    cases hof : Policy.ofValue v with
    | error fault =>
      simp only [hof] at h
      cases h
    | ok q =>
      simp only [hof] at h
      obtain rfl := Except.ok.inj h
      have hv := Policy.eq_text_of_ofValue (untagged _ (Value.mem_of_lookup hlookup)) hof
      obtain rfl : v = .text q.name := hv
      rfl

/-- The name that is told, if one is. -/
theorem lookup_nameOf (untagged : ∀ f ∈ named, f.2.isTagged = false) {name : Option String}
    (h : nameOf (Value.keyed named) = .ok name) :
    name.map .text = Value.nonNull? (named.lookup "name") := by
  rw [nameOf, Value.find?_keyed] at h
  cases hlookup : named.lookup "name" with
  | none =>
    rw [hlookup] at h
    obtain rfl := Except.ok.inj h
    rfl
  | some v =>
    rw [hlookup] at h
    cases htext : v.asText? with
    | none =>
      simp only [htext] at h
      cases h
    | some s =>
      simp only [htext] at h
      obtain rfl := Except.ok.inj h
      have hv := Value.eq_text_of_asText? (untagged _ (Value.mem_of_lookup hlookup)) htext
      obtain rfl : v = .text s := hv
      rfl

/-- **An origin is told by what stands under its type's keys**, and nothing else stands there. -/
theorem originOf_keyed (untagged : ∀ f ∈ named, f.2.isTagged = false)
    (known : ∀ f ∈ named, f.1 = typeKey ∨ f.1 ∈ o.type.fieldNames)
    (h : originOf (Value.keyed named) = .ok o) :
    named.lookup typeKey = some (.text o.type.name) ∧ ∀ key, key ≠ typeKey →
      (o.fields.lookup key).map Field.value =
        (Value.nonNull? (named.lookup key)).or (o.type.usual? key) := by
  obtain ⟨-, -, h⟩ := bind_eq_ok_iff.1 h
  rw [Value.find?_keyed] at h
  cases hlookup : named.lookup typeKey with
  | none =>
    rw [hlookup] at h
    cases h
  | some v =>
    rw [hlookup] at h
    obtain ⟨t, ht, h⟩ := bind_eq_ok_iff.1 h
    have hv := EntryType.eq_text_of_ofValue (untagged _ (Value.mem_of_lookup hlookup)) ht
    generalize hleft : named.filter (·.1 != typeKey) = left
    have hkeyed : (Value.keyed named).filter (fun f => !(f.1 == .text typeKey)) =
        Value.keyed left := by
      rw [← hleft, Value.keyed, List.filter_map]
      rfl
    obtain ⟨found, hof, hcollect⟩ : ∃ found, Origin.ofFields found t = .ok o ∧
        ((t.fields.isEmpty = true ∧ found = []) ∨ t.collect [] (Value.keyed left) = .ok found) := by
      split at h
      · next hempty => exact ⟨[], h, .inl ⟨hempty, rfl⟩⟩
      · rw [hkeyed] at h
        obtain ⟨found, hfound, hof⟩ := bind_eq_ok_iff.1 h
        exact ⟨found, hof, .inr hfound⟩
    obtain rfl := Origin.type_of_ofFields hof
    have hnames : ∀ f ∈ left, f.1 ∈ o.type.fieldNames := by
      intro f hf
      rw [← hleft, List.mem_filter] at hf
      exact (known f hf.1).resolve_left (bne_iff_ne.1 hf.2)
    obtain ⟨rfl, htakes⟩ : found = left ∧ ∀ f ∈ left, o.type.Takes f := by
      rcases hcollect with ⟨hempty, rfl⟩ | hcollect
      · -- a type without fields leaves no key
        have hnil : left = [] := List.eq_nil_iff_forall_not_mem.2 fun f hf => by
          have hname := hnames f hf
          rw [EntryType.fieldNames, List.isEmpty_iff.1 hempty] at hname
          exact absurd hname List.not_mem_nil
        exact ⟨hnil.symm, fun f hf => absurd (hnil ▸ hf) List.not_mem_nil⟩
      · exact EntryType.collect_keyed hnames hcollect
    refine ⟨congrArg some hv, fun key hkey => ?_⟩
    rw [Origin.lookup_fields htakes hof, ← hleft, Value.lookup_filter_ne hkey]

/-- The value that a key has where an entry says nothing. -/
def usual? (t : EntryType) (key : String) : Option Value :=
  if key = "policy" then some (.text Policy.merge.name) else t.usual? key

/-- The keys of a written entry. -/
theorem lookup_written (e : SourceEntry) (key : String) : e.fields.lookup key =
    if key = "policy" then some (.text e.policy.name)
    else if key = "name" then e.name.map .text
    else if key = typeKey then some (.text e.origin.type.name)
    else e.origin.fields.lookup key := by
  rw [fields_eq]
  by_cases hpolicy : key = "policy"
  · subst hpolicy
    rfl
  have hbehind : (("policy", Field.text e.policy.name) :: e.afterPolicy).lookup key =
      e.afterPolicy.lookup key := by
    rw [List.lookup_cons, beq_eq_false_iff_ne.2 hpolicy]
  rw [hbehind, if_neg hpolicy]
  by_cases hname : key = "name"
  · rw [if_pos hname, hname, lookup_name]
  have htyped : e.afterPolicy.lookup key = e.origin.typed.lookup key := by
    rw [afterPolicy]
    cases e.name with
    | none => rfl
    | some s =>
      change ((("name", Field.text s) :: e.origin.typed).lookup key) = _
      rw [List.lookup_cons, beq_eq_false_iff_ne.2 hname]
  rw [htyped, if_neg hname, Origin.typed, List.lookup_cons]
  by_cases htype : key = typeKey
  · rw [if_pos htype, beq_iff_eq.2 htype]
  · rw [if_neg htype, beq_eq_false_iff_ne.2 htype]

/-- **An entry is told key by key**: all its keys are known, and what is written for it is what has
been read, or what is usual where nothing was said. -/
theorem lookup_fields (distinct : (named.map (·.1)).Nodup)
    (untagged : Value.anyEntryTagged (Value.keyed named) = false)
    (h : ofPairs (Value.keyed named) = .ok e) :
    (∀ f ∈ named, f.1 ∈ [typeKey, "policy", "name"] ∨ f.1 ∈ e.origin.type.fieldNames) ∧
    ∀ key, (e.fields.lookup key).map Field.value =
      (Value.nonNull? (named.lookup key)).or (usual? e.origin.type key) := by
  have hplain : ∀ f ∈ named, f.2.isTagged = false := fun f hf =>
    (Value.isTagged_of_mem untagged _ (List.mem_map_of_mem hf)).2
  obtain ⟨hpolicy, hname, horigin, hunknown⟩ := ofPairs_cases h
  obtain ⟨behind, hbehind, hperm⟩ := Value.exists_takeOut_keyed "policy" distinct
  have hnd : (behind.map (·.1)).Nodup :=
    (hperm.map _).nodup_iff.2 (distinct.sublist (List.filter_sublist.map _))
  obtain ⟨rest, hrest, hleft⟩ := Value.exists_takeOut_keyed "name" hnd
  have hndRest : (rest.map (·.1)).Nodup :=
    (hleft.map _).nodup_iff.2 (hnd.sublist (List.filter_sublist.map _))
  rw [hbehind] at hname horigin hunknown
  rw [hrest] at horigin hunknown
  -- what is left is what does not stand under the two keys
  have hmem : ∀ f ∈ named, f.1 ≠ "policy" → f.1 ≠ "name" → f ∈ rest := fun f hf hp hn =>
    hleft.mem_iff.2 (List.mem_filter.2
      ⟨hperm.mem_iff.2 (List.mem_filter.2 ⟨hf, bne_iff_ne.2 hp⟩), bne_iff_ne.2 hn⟩)
  have hsubBehind : ∀ f ∈ behind, f ∈ named := fun f hf =>
    (List.mem_filter.1 (hperm.mem_iff.1 hf)).1
  have hsubRest : ∀ f ∈ rest, f ∈ named := fun f hf =>
    hsubBehind f (List.mem_filter.1 (hleft.mem_iff.1 hf)).1
  have hlookup : ∀ key, key ≠ "policy" → key ≠ "name" → rest.lookup key = named.lookup key := by
    intro key hp hn
    rw [lookup_eq_of_perm hleft hndRest, Value.lookup_filter_ne hn, lookup_eq_of_perm hperm hnd,
      Value.lookup_filter_ne hp]
  have hknown : ∀ f ∈ rest, f.1 = typeKey ∨ f.1 ∈ e.origin.type.fieldNames := by
    intro f hf
    obtain ⟨key, hkey, hnamed⟩ :=
      exists_text_of_unknownKey? (f := (.text f.1, f.2)) hunknown (List.mem_map_of_mem hf) rfl
    obtain rfl : f.1 = key := by injection hkey
    exact hnamed
  obtain ⟨htype, hfields⟩ := originOf_keyed (fun f hf => hplain f (hsubRest f hf)) hknown horigin
  constructor
  · intro f hf
    by_cases hp : f.1 = "policy"
    · exact .inl (by simp [hp])
    by_cases hn : f.1 = "name"
    · exact .inl (by simp [hn])
    · exact (hknown f (hmem f hf hp hn)).imp_left fun ht => by simp [ht]
  · intro key
    rw [lookup_written, usual?]
    by_cases hp : key = "policy"
    · rw [if_pos hp, if_pos hp, hp]
      exact lookup_policy hplain hpolicy
    rw [if_neg hp, if_neg hp]
    by_cases hn : key = "name"
    · rw [if_pos hn, hn, Option.map_map]
      have htold := lookup_nameOf (fun f hf => hplain f (hsubBehind f hf)) hname
      have husual : e.origin.type.usual? "name" = none := if_neg fun h => absurd h.1 (by decide)
      rw [lookup_eq_of_perm hperm hnd, Value.lookup_filter_ne (by decide)] at htold
      rw [husual, Option.or_none, ← htold]
      rfl
    rw [if_neg hn, ← hlookup key hp hn]
    by_cases ht : key = typeKey
    · rw [if_pos ht, ht, htype]
      rfl
    · rw [if_neg ht]
      exact hfields key ht

/-- Is nothing said under a key, or only what is usual there? -/
def LeavesUsual (t : EntryType) (key : String) (found : Option Value) : Prop :=
  Value.nonNull? found = none ∨ found = usual? t key

theorem eq_or_leavesUsual {t : EntryType} {found other : Option Value}
    (h : (Value.nonNull? found).or (usual? t key) = (Value.nonNull? other).or (usual? t key)) :
    found = other ∨ LeavesUsual t key found ∧ LeavesUsual t key other := by
  cases hfound : Value.nonNull? found with
  | none =>
    cases hother : Value.nonNull? other with
    | none => exact .inr ⟨.inl hfound, .inl hother⟩
    | some w =>
      rw [hfound, hother] at h
      exact .inr ⟨.inl hfound, .inr ((Value.nonNull?_eq_some_iff.1 hother).1.trans h.symm)⟩
  | some v =>
    have hv := (Value.nonNull?_eq_some_iff.1 hfound).1
    cases hother : Value.nonNull? other with
    | none =>
      rw [hfound, hother] at h
      exact .inr ⟨.inr (hv.trans h), .inl hother⟩
    | some w =>
      rw [hfound, hother] at h
      exact .inl (hv.trans (h.trans (Value.nonNull?_eq_some_iff.1 hother).1.symm))

/-- **No key of an entry is passed over.** If a mapping without tags is accepted, each of its keys
is one of those that an entry of the type may have, and stands with the same value in the mapping
that is written for the entry, unless the value is null. The written mapping says under each key
what has been read there, and what is usual where nothing was said. So two mappings that are
accepted as the same entry can differ only where both leave what is usual. -/
theorem ofPairs_keeps (distinct : distinctKeys entries = true)
    (untagged : Value.anyEntryTagged entries = false) (accepted : ofPairs entries = .ok e) :
    ∃ written, (∀ (d : Document) depth budget,
        d.value? (depth + 1) e.tree.node budget = some (.mapping written, budget)) ∧
      (∀ f ∈ entries, (∃ key, f.1 = .text key ∧
          (key ∈ [typeKey, "policy", "name"] ∨ key ∈ e.origin.type.fieldNames)) ∧
        (f.2 ≠ .null → f ∈ written)) ∧
      (∀ key, Value.find? key written =
        (Value.nonNull? (Value.find? key entries)).or (usual? e.origin.type key)) ∧
      ∀ others, distinctKeys others = true → Value.anyEntryTagged others = false →
        ofPairs others = .ok e → ∀ key,
          Value.find? key entries = Value.find? key others ∨
          LeavesUsual e.origin.type key (Value.find? key entries) ∧
            LeavesUsual e.origin.type key (Value.find? key others) := by
  have htold : ∀ {entries : Pairs}, distinctKeys entries = true →
      Value.anyEntryTagged entries = false → ofPairs entries = .ok e → ∀ key,
        Value.find? key (Field.pairs e.fields) =
          (Value.nonNull? (Value.find? key entries)).or (usual? e.origin.type key) := by
    intro entries distinct untagged accepted key
    obtain ⟨named, rfl⟩ := Value.exists_keyed (keys_of_ofPairs untagged accepted)
    rw [Field.find?_pairs, Value.find?_keyed]
    exact (lookup_fields (Value.nodup_of_distinctKeys distinct) untagged accepted).2 key
  refine ⟨Field.pairs e.fields, fun d depth budget =>
    Field.value?_mapping d depth e.nodup_fields budget, ?_, htold distinct untagged accepted, ?_⟩
  · obtain ⟨named, rfl⟩ := Value.exists_keyed (keys_of_ofPairs untagged accepted)
    have hnd := Value.nodup_of_distinctKeys distinct
    obtain ⟨hknown, hlookup⟩ := lookup_fields hnd untagged accepted
    intro f hf
    obtain ⟨⟨key, v⟩, hnamed, rfl⟩ := List.mem_map.1 hf
    refine ⟨⟨key, rfl, hknown _ hnamed⟩, fun hne => ?_⟩
    have hfound := hlookup key
    rw [(lookup_eq_some_iff_mem hnd).2 hnamed, Value.nonNull?_eq_some_iff.2 ⟨rfl, hne⟩,
      Option.some_or] at hfound
    obtain ⟨field, hfield, rfl⟩ := Option.map_eq_some_iff.1 hfound
    exact List.mem_map.2 ⟨(key, field), (lookup_eq_some_iff_mem e.nodup_fields).1 hfield, rfl⟩
  · intro others distinctOthers untaggedOthers acceptedOthers key
    exact eq_or_leavesUsual ((htold distinct untagged accepted key).symm.trans
      (htold distinctOthers untaggedOthers acceptedOthers key))

/-- An entry of a repository whose keys stand in no particular order. -/
def looseGit : Pairs :=
  [(.text "repo", .text "https://h/c.git"), (.text "branch", .null), (.text "name", .text "hosts"),
    (.text "type", .text "git")]

/-- The hypotheses of `ofPairs_keeps` are satisfiable. -/
theorem ofPairs_keeps_looseGit :
    distinctKeys looseGit = true ∧ Value.anyEntryTagged looseGit = false ∧
    ofPairs looseGit =
      .ok { origin := .git "https://h/c.git" "" none, name := some "hosts" } ∧
    ∃ written, Value.find? "name" written = some (.text "hosts") ∧
      Value.find? "dir" written = some (.text "") ∧ Value.find? "branch" written = none := by
  have distinct : distinctKeys looseGit = true := by decide +kernel
  have untagged : Value.anyEntryTagged looseGit = false := by decide +kernel
  have accepted : ofPairs looseGit =
      .ok { origin := .git "https://h/c.git" "" none, name := some "hosts" } := by rfl
  obtain ⟨written, -, -, hfind, -⟩ := ofPairs_keeps distinct untagged accepted
  exact ⟨distinct, untagged, accepted, written, hfind "name", hfind "dir", hfind "branch"⟩

end SourceEntry

end ClusterSync
