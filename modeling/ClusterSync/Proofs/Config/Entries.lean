/-
# Entries come back from documents

A written entry is read as a mapping that has a value for each of its keys
(`Field.value?_mapping`). Policy and name are taken out of the mapping, which moves a key that has
nothing to do with them (`Value.takeOut_perm`). What is left stands in another order then, so
an origin is told by its keys in any order (`SourceEntry.originOf_pairs`). An entry of any type is
read back, with a name and with the keys that may be left out or without them
(`SourceEntry.read_tree`).
-/

import Mathlib.Data.List.Perm.Basic
import ClusterSync.Config.EntryReading
import ClusterSync.Config.Writing
import ClusterSync.Proofs.Cluster.Documents
import ClusterSync.Proofs.Results

namespace ClusterSync

open Yaml

/-! ### Lists -/

/-- A list whose last element takes the place of another is a list without that one, as far as
the order does not count. -/
theorem set_dropLast_perm {α : Type} {before : List α} {last : α} {i : Nat}
    (h : i < before.length) :
    (((before ++ [last]).set i last).dropLast).Perm ((before ++ [last]).eraseIdx i) := by
  rw [List.set_append_left _ _ h, List.dropLast_concat, List.eraseIdx_append_of_lt_length h]
  exact (List.set_perm_cons_eraseIdx h last).trans (List.perm_append_singleton ..).symm

/-- An order of images is the one of the things in some order. -/
theorem exists_perm_of_perm_map {α β : Type} {f : α → β} {es : List β} {l : List α}
    (h : es.Perm (l.map f)) : ∃ l' : List α, es = l'.map f ∧ l'.Perm l := by
  have himages : List.Forall₂ (fun b a => b = f a) (l.map f) l := by
    rw [List.forall₂_map_left_iff]
    exact List.forall₂_same.2 fun _ _ => rfl
  obtain ⟨l', hl', hperm⟩ := List.perm_comp_forall₂ h himages
  refine ⟨l', ?_, hperm⟩
  rw [← List.forall₂_eq_eq_eq, List.forall₂_map_right_iff]
  exact hl'

theorem lookup_eq_some_iff_mem {α : Type} {es : List (String × α)} {k : String} {a : α}
    (hnd : (es.map (·.1)).Nodup) : es.lookup k = some a ↔ (k, a) ∈ es := by
  induction es with
  | nil => simp
  | cons e es ih =>
    obtain ⟨hfresh, hnd⟩ := List.nodup_cons.1 hnd
    rw [List.lookup_cons, List.mem_cons]
    by_cases hk : k = e.1
    · have hlater : (e.1, a) ∉ es := fun h => hfresh (List.mem_map_of_mem (f := (·.1)) h)
      simp [hlater, Prod.ext_iff, hk, eq_comm]
    · have hne : (k == e.1) = false := beq_eq_false_iff_ne.2 hk
      simp [hne, ih hnd, Prod.ext_iff, hk]

theorem lookup_eq_of_perm {α : Type} {es others : List (String × α)} (h : es.Perm others)
    (hnd : (es.map (·.1)).Nodup) (k : String) : es.lookup k = others.lookup k := by
  have hnd' : (others.map (·.1)).Nodup := (h.map _).nodup_iff.1 hnd
  refine Option.ext fun a => ?_
  rw [lookup_eq_some_iff_mem hnd, lookup_eq_some_iff_mem hnd', h.mem_iff]

/-! ### Keys and what stands under them -/

namespace Yaml

theorem Tree.itemsHaveWords_iff {items : List Tree} :
    Tree.ItemsHaveWords items ↔ ∀ item ∈ items, item.HasWords := by
  induction items with
  | nil => exact iff_of_true trivial fun _ h => absurd h List.not_mem_nil
  | cons item items ih => rw [Tree.ItemsHaveWords, ih, List.forall_mem_cons]

theorem Tree.entriesHaveWords_iff {entries : List (String × Tree)} :
    Tree.EntriesHaveWords entries ↔ ∀ e ∈ entries, e.2.HasWords := by
  induction entries with
  | nil => exact iff_of_true trivial fun _ h => absurd h List.not_mem_nil
  | cons e entries ih => rw [Tree.EntriesHaveWords, ih, List.forall_mem_cons]

/-- A scalar is the value of the atom that it means, however deep it stands. -/
theorem Document.value?_scalar (d : Document) (depth : Nat) {style : Style} {s : String}
    {a : Atom} {v : Value} (h : Atom.ofScalar? none style s = some a)
    (hv : Value.ofAtom? a = some v) (budget : Nat) :
    d.value? depth (.scalar none style s) budget = some (v, budget) := by
  have hvalue : scalarValue? none style s = some v := by
    simp [scalarValue?, localTag?, underTag, h, hv]
  cases depth <;> simp [value?, followWithin, valueBy?, hvalue]

theorem Value.text_beq (s t : String) : (Value.text s == Value.text t) = (s == t) := rfl

/-- **Taking out a key leaves the other entries**, in one order or another. -/
theorem Value.takeOut_perm (key : String) (entries : Pairs) :
    (Value.takeOut key entries).Perm (entries.eraseP fun e => e.1 == Value.text key) := by
  rw [List.eraseP_eq_eraseIdx, Value.takeOut]
  cases hfound : entries.findIdx? fun e => e.1 == Value.text key with
  | none => exact .refl _
  | some i =>
    obtain ⟨hi, -⟩ := List.findIdx?_eq_some_iff_getElem.1 hfound
    rcases List.eq_nil_or_concat entries with rfl | ⟨before, last, rfl⟩
    · cases hi
    · rw [List.concat_eq_append, List.length_append, List.length_singleton] at hi
      simp only [List.concat_eq_append, List.getLast?_concat, List.length_append,
        List.length_singleton]
      by_cases hlast : i = before.length
      · rw [if_pos (by omega), hlast, List.dropLast_concat,
          List.eraseIdx_append_of_length_le (Nat.le_refl _), Nat.sub_self]
        simp
      · rw [if_neg (by omega)]
        exact set_dropLast_perm (by omega)

namespace Value

variable {α : Type} (f : α → Value) (key : String) (es : List (String × α))

/-- Names with what stands under them, as entries of a mapping. -/
def entriesOf : Pairs := es.map fun e => (.text e.1, f e.2)

theorem find?_entriesOf : find? key (entriesOf f es) = (es.lookup key).map f := by
  induction es with
  | nil => rfl
  | cons e es ih =>
    change (if text e.1 == text key then some (f e.2) else find? key (entriesOf f es)) = _
    rw [text_beq, ih, List.lookup_cons]
    by_cases hkey : key = e.1
    · simp [hkey]
    · have hne : (key == e.1) = false := beq_eq_false_iff_ne.2 hkey
      simp [hne, Ne.symm hkey]

theorem any_entriesOf_iff : (entriesOf f es).any (·.1 == text key) = true ↔
    key ∈ es.map (·.1) := by
  rw [entriesOf, List.any_map, List.any_eq_true, List.mem_map]
  refine exists_congr fun e => and_congr_right fun _ => ?_
  change (text e.1 == text key) = true ↔ _
  rw [text_beq, beq_iff_eq]

/-- The keys of the entries are distinct exactly if the names are. -/
theorem distinctKeys_entriesOf : distinctKeys (entriesOf f es) = true ↔
    (es.map (·.1)).Nodup := by
  induction es with
  | nil => exact iff_of_true rfl List.nodup_nil
  | cons e es ih =>
    change (!(entriesOf f es).any (·.1 == text e.1) && distinctKeys (entriesOf f es)) = true ↔ _
    rw [Bool.and_eq_true, Bool.not_eq_true', ← Bool.not_eq_true, any_entriesOf_iff, ih,
      List.map_cons, List.nodup_cons]

/-- A key is taken out with its name. -/
theorem exists_takeOut_entriesOf : ∃ rest,
    takeOut key (entriesOf f es) = entriesOf f rest ∧ rest.Perm (es.eraseP (·.1 == key)) := by
  have hperm := takeOut_perm key (entriesOf f es)
  rw [entriesOf, List.eraseP_map] at hperm
  exact exists_perm_of_perm_map hperm

end Value

end Yaml

namespace Field

variable {fields : List (String × Field)}

/-- What stands under a key, as a value. -/
def value : Field → Value
  | .text s => .text s
  | .number w => .int w.toNat

/-- A key with what stands under it, as an entry of a mapping of values. -/
def pair (f : String × Field) : Value × Value := (.text f.1, f.2.value)

/-- Keys with what stands under them, as a mapping of values has them. -/
def pairs (fields : List (String × Field)) : Pairs := fields.map pair

theorem isWord_unsigned (w : UInt64) : IsWord (toString (w.toNat : Int)) (.int w.toNat) := by
  have hw : w.toNat < 0x10000000000000000 := w.toNat_lt
  exact isWord_int (by omega) (by omega)

theorem hasWords_tree (f : Field) : f.tree.HasWords := by
  cases f with
  | text s => trivial
  | number w => exact ⟨(isWord_unsigned w).ne_nil, (isWord_unsigned w).plain⟩

theorem hasWords_mapping (fields : List (String × Field)) :
    (Tree.mapping (mapping fields)).HasWords := by
  refine Tree.entriesHaveWords_iff.2 fun e he => ?_
  obtain ⟨f, -, rfl⟩ := List.mem_map.1 he
  exact f.2.hasWords_tree

theorem value?_tree (d : Document) (depth : Nat) (f : Field) (budget : Nat) :
    d.value? depth f.tree.node budget = some (f.value, budget) := by
  cases f with
  | text s => exact d.value?_scalar depth (ofScalar?_ofText s) rfl budget
  | number w =>
    have hmeans : Atom.ofScalar? none .plain (toString (w.toNat : Int)) = some (.int w.toNat) :=
      congrArg some (isWord_unsigned w).means
    exact d.value?_scalar depth hmeans rfl budget

theorem readAll_mapping (d : Document) (depth : Nat) (fields : List (String × Field))
    (budget : Nat) :
    readAll (Document.readPair (d.value? depth)) (Tree.entryNodes (mapping fields)) budget =
      some (pairs fields, budget) := by
  induction fields with
  | nil => rfl
  | cons f fields ih =>
    have hkey := d.value?_scalar depth (ofScalar?_ofText f.1) rfl budget
    have hentry : Document.readPair (d.value? depth)
        (.scalar none (Style.ofText f.1) f.1, f.2.tree.node) budget = some (pair f, budget) := by
      simp only [Document.readPair, hkey, value?_tree d depth f.2 budget, Option.bind_eq_bind,
        Option.bind_some]
      rfl
    change readAll _ ((.scalar none (Style.ofText f.1) f.1, f.2.tree.node) ::
      Tree.entryNodes (mapping fields)) budget = _
    simp only [readAll, hentry, ih, Option.bind_eq_bind, Option.bind_some]
    rfl

theorem distinctKeys_pairs (h : (fields.map (·.1)).Nodup) : distinctKeys (pairs fields) = true :=
  (Value.distinctKeys_entriesOf value fields).2 h

/-- **Keys are read as a mapping of their values**, if none is there twice. -/
theorem value?_mapping (d : Document) (depth : Nat) (h : (fields.map (·.1)).Nodup)
    (budget : Nat) : d.value? (depth + 1) (Tree.mapping (mapping fields)).node budget =
      some (.mapping (pairs fields), budget) := by
  have hnode : (Tree.mapping (mapping fields)).node =
      .mapping none (Tree.entryNodes (mapping fields)) := rfl
  rw [hnode, Document.value?]
  simp only [Document.followWithin, Document.valueBy?, Option.bind_eq_bind, Option.bind_some,
    readAll_mapping, distinctKeys_pairs h, if_true]
  rfl

/-! ### Keys that are found and taken out -/

theorem find?_pairs (key : String) (fields : List (String × Field)) :
    Value.find? key (pairs fields) = (fields.lookup key).map value :=
  Value.find?_entriesOf value key fields

theorem exists_takeOut_pairs (key : String) (fields : List (String × Field)) : ∃ rest,
    Value.takeOut key (pairs fields) = pairs rest ∧ rest.Perm (fields.eraseP (·.1 == key)) :=
  Value.exists_takeOut_entriesOf value key fields

end Field

/-! ### Origins -/

namespace EntryType

theorem ofName?_name (t : EntryType) : ofName? t.name = some t := by
  cases t <;> decide

theorem ofValue_name (t : EntryType) : ofValue (.text t.name) = .ok t := by
  have hname : (Value.text t.name).asText? = some t.name := rfl
  simp only [ofValue, hname, ofName?_name]

/-- Does a type have the key, for what stands under it? -/
def Has (t : EntryType) (f : String × Field) : Prop :=
  ∃ kind, t.fields.find? (·.1 == f.1) = some (f.1, kind) ∧ kind.admits f.2.value = true

/-- Keys with what stands under them, as the fields of a type are collected. -/
def named (fields : List (String × Field)) : List (String × Value) :=
  fields.map fun f => (f.1, f.2.value)

/-- **All keys of a type are collected**, if none is there twice. -/
theorem collect_pairs {t : EntryType} {fields : List (String × Field)}
    {found : List (String × Value)} (hhas : ∀ f ∈ fields, t.Has f)
    (hnd : (found.map (·.1) ++ fields.map (·.1)).Nodup) :
    t.collect found (Field.pairs fields) = .ok (found ++ named fields) := by
  induction fields generalizing found with
  | nil => simp [Field.pairs, named, collect]
  | cons f fields ih =>
    obtain ⟨kind, hfind, hadmits⟩ := hhas f (List.mem_cons_self ..)
    have hfresh : found.any (·.1 == f.1) = false := by
      rw [List.any_eq_false]
      intro e he
      have hdisjoint := List.disjoint_of_nodup_append hnd (List.mem_map_of_mem (f := (·.1)) he)
      simp only [beq_iff_eq]
      exact fun heq => hdisjoint (heq ▸ List.mem_map_of_mem (List.mem_cons_self ..))
    have hfield : t.field (Field.pair f).1 = .ok (some (f.1, kind)) := congrArg Except.ok hfind
    have hndRest : ((found ++ [(f.1, f.2.value)]).map (·.1) ++ fields.map (·.1)).Nodup := by
      simpa using hnd
    have hrest := ih (fun g hg => hhas g (List.mem_cons_of_mem _ hg)) hndRest
    change t.collect found (Field.pair f :: Field.pairs fields) = _
    rw [collect, hfield]
    simp only [bind, Except.bind, hfresh, Field.pair, hadmits]
    simpa [named] using hrest

end EntryType

namespace Origin

theorem has_fields (o : Origin) : ∀ f ∈ o.fields, o.type.Has f := by
  intro f hf
  cases o with
  | directory path =>
    obtain rfl := List.mem_singleton.1 hf
    exact ⟨_, rfl, rfl⟩
  | git repo path branch =>
    simp only [fields, Field.optional, List.mem_append, List.mem_cons, List.not_mem_nil, or_false,
      Option.mem_toList, Option.map_eq_some_iff] at hf
    rcases hf with (rfl | rfl) | ⟨b, -, rfl⟩
    · exact ⟨_, rfl, rfl⟩
    · exact ⟨_, rfl, rfl⟩
    · exact ⟨_, rfl, rfl⟩
  | svn repo path =>
    rcases List.mem_pair.1 hf with rfl | rfl
    · exact ⟨_, rfl, rfl⟩
    · exact ⟨_, rfl, rfl⟩
  | listing url filter timeout =>
    simp only [fields, Field.optional, List.mem_append, List.mem_cons, List.not_mem_nil, or_false,
      Option.mem_toList, Option.map_eq_some_iff] at hf
    rcases hf with (rfl | rfl) | ⟨w, -, rfl⟩
    · exact ⟨_, rfl, rfl⟩
    · exact ⟨_, rfl, rfl⟩
    · have hw : w.toNat < 0x10000000000000000 := w.toNat_lt
      refine ⟨.optionalWord, rfl, ?_⟩
      simp only [FieldKind.admits, Field.value, Bool.and_eq_true, decide_eq_true_eq]
      omega
  | stamp => exact absurd hf List.not_mem_nil
  | membership => exact absurd hf List.not_mem_nil

/-- The keys of an entry that are left when policy and name have been taken out. -/
def typed (o : Origin) : List (String × Field) :=
  (SourceEntry.typeKey, .text o.type.name) :: o.fields

/-- No two keys of an entry are the same. -/
theorem nodup_keys (o : Origin) : ("policy" :: "name" :: o.typed.map (·.1)).Nodup := by
  cases o with
  | git repo path branch =>
    cases branch <;> simp [typed, SourceEntry.typeKey, fields, Field.optional]
  | listing url filter timeout =>
    cases timeout <;> simp [typed, SourceEntry.typeKey, fields, Field.optional]
  | _ => simp [typed, SourceEntry.typeKey, fields]

theorem nodup_typed (o : Origin) : (o.typed.map (·.1)).Nodup :=
  (List.nodup_cons.1 (List.nodup_cons.1 o.nodup_keys).2).2

theorem ne_nameKey {o : Origin} {f : String × Field} (hf : f ∈ o.typed) : f.1 ≠ "name" :=
  fun heq => (List.nodup_cons.1 (List.nodup_cons.1 o.nodup_keys).2).1
    (List.mem_map.2 ⟨f, hf, heq⟩)

theorem ne_typeKey {o : Origin} {f : String × Field} (hf : f ∈ o.fields) :
    (f.1 == SourceEntry.typeKey) = false := by
  rw [beq_eq_false_iff_ne]
  exact fun heq => (List.nodup_cons.1 o.nodup_typed).1 (List.mem_map.2 ⟨f, hf, heq⟩)

theorem ofFields_congr {found others : List (String × Value)}
    (h : ∀ key, found.lookup key = others.lookup key) (t : EntryType) :
    ofFields found t = ofFields others t := by
  cases t <;> simp only [ofFields, textField, textField?, wordField?, h]

theorem ofFields_named (o : Origin) : ofFields (EntryType.named o.fields) o.type = .ok o := by
  cases o with
  | git repo path branch => cases branch <;> rfl
  | listing url filter timeout =>
    cases timeout with
    | none => rfl
    | some w =>
      have hword : UInt64.ofNat (w.toNat : Int).toNat = w := by simp
      exact congrArg (fun w => Except.ok (listing url filter (some w))) hword
  | _ => rfl

end Origin

namespace SourceEntry

variable {o : Origin} {fields : List (String × Field)}

theorem checkPair_pair {f : String × Field} (hf : f ∈ o.typed) :
    checkPair (Field.pair f) = .ok () := by
  rcases List.mem_cons.1 hf with rfl | hf
  · have hvalue : EntryType.ofValue (Field.pair (typeKey, .text o.type.name)).2 = .ok o.type :=
      o.type.ofValue_name
    rw [checkPair, hvalue]
    rfl
  · have hother : ((Field.pair f).1 == .text typeKey) = false := Origin.ne_typeKey hf
    have htags : (Field.pair f).1.isTagged = false ∧ (Field.pair f).2.isTagged = false := by
      obtain ⟨key, field⟩ := f
      cases field <;> exact ⟨rfl, rfl⟩
    rw [checkPair, hother, htags.1, htags.2]
    rfl

/-- What the keys tell besides the type, in whatever order they stand. -/
theorem ofFields_collected (h : fields.Perm o.fields) :
    Origin.ofFields (EntryType.named fields) o.type = .ok o := by
  have hperm : (EntryType.named fields).Perm (EntryType.named o.fields) := h.map _
  have hnd : ((EntryType.named fields).map (·.1)).Nodup := by
    have hkeys : (EntryType.named o.fields).map (·.1) = o.fields.map (·.1) := by
      simp [EntryType.named]
    rw [(hperm.map _).nodup_iff, hkeys]
    exact (List.nodup_cons.1 o.nodup_typed).2
  rw [Origin.ofFields_congr (lookup_eq_of_perm hperm hnd), Origin.ofFields_named]

/-- **An origin is told by its keys**, in whatever order they stand. -/
theorem originOf_pairs (h : fields.Perm o.typed) : originOf (Field.pairs fields) = .ok o := by
  have hnd : (fields.map (·.1)).Nodup := (h.map _).nodup_iff.2 o.nodup_typed
  have hchecked : (Field.pairs fields).forM checkPair = .ok () := by
    rw [forM_eq_ok_iff]
    intro e he
    obtain ⟨f, hf, rfl⟩ := List.mem_map.1 he
    exact checkPair_pair (h.mem_iff.1 hf)
  have htype : Value.find? typeKey (Field.pairs fields) = some (.text o.type.name) := by
    rw [Field.find?_pairs, lookup_eq_of_perm h hnd]
    rfl
  -- without the type the keys of the origin are left
  generalize hleft : fields.filter (fun f => !(f.1 == typeKey)) = rest
  have hpairs : (Field.pairs fields).filter (fun e => !(e.1 == .text typeKey)) =
      Field.pairs rest := by
    rw [← hleft, Field.pairs, List.filter_map]
    rfl
  have hrest : rest.Perm o.fields := by
    have hfilter : o.typed.filter (fun f => !(f.1 == typeKey)) = o.fields := by
      refine (List.filter_cons_of_neg (by simp)).trans (List.filter_eq_self.2 fun f hf => ?_)
      rw [Origin.ne_typeKey hf]
      rfl
    exact hleft ▸ hfilter ▸ h.filter _
  have hcollect : o.type.collect [] (Field.pairs rest) = .ok (EntryType.named rest) := by
    refine EntryType.collect_pairs (fun f hf => o.has_fields f (hrest.mem_iff.1 hf)) ?_
    exact (hrest.map _).nodup_iff.2 (List.nodup_cons.1 o.nodup_typed).2
  simp only [originOf, hchecked, htype, hpairs, hcollect, bind, Except.bind,
    EntryType.ofValue_name]
  split
  · next hempty =>
    -- of a type without fields nothing is left
    have hnil : rest = [] := by
      rw [List.eq_nil_iff_forall_not_mem]
      intro f hf
      obtain ⟨kind, hfind, -⟩ := o.has_fields f (hrest.mem_iff.1 hf)
      rw [List.isEmpty_iff.1 hempty] at hfind
      cases hfind
    subst hnil
    exact ofFields_collected hrest
  · exact ofFields_collected hrest

theorem unknownKey?_pairs (h : fields.Perm o.typed) :
    unknownKey? o.type (Field.pairs fields) = none := by
  rw [unknownKey?, List.find?_eq_none]
  intro key hkey
  obtain ⟨e, he, rfl⟩ := List.mem_map.1 hkey
  obtain ⟨f, hf, rfl⟩ := List.mem_map.1 he
  have htext : (Field.pair f).1.asText? = some f.1 := rfl
  rw [htext]
  rcases List.mem_cons.1 (h.mem_iff.1 hf) with rfl | hf
  · simp
  · obtain ⟨kind, hfind, -⟩ := o.has_fields f hf
    have hname : f.1 ∈ o.type.fieldNames := List.mem_map.2 ⟨_, List.mem_of_find?_eq_some hfind, rfl⟩
    simp [hname]

/-- The keys of an entry behind its policy. -/
def afterPolicy (e : SourceEntry) : List (String × Field) :=
  Field.optional "name" .text e.name ++ e.origin.typed

theorem fields_eq (e : SourceEntry) :
    e.fields = ("policy", .text e.policy.name) :: e.afterPolicy := by
  simp [fields, afterPolicy, Origin.typed, typeKey]

theorem nodup_fields (e : SourceEntry) : (e.fields.map (·.1)).Nodup := by
  have hsublist : (e.fields.map (·.1)).Sublist
      ("policy" :: "name" :: e.origin.typed.map (·.1)) := by
    rw [fields_eq, afterPolicy]
    cases e.name with
    | none => exact .cons_cons _ (.cons _ (.refl _))
    | some s => exact .refl _
  exact e.origin.nodup_keys.sublist hsublist

theorem nodup_afterPolicy (e : SourceEntry) : (e.afterPolicy.map (·.1)).Nodup := by
  have hnd := e.nodup_fields
  rw [fields_eq] at hnd
  exact (List.nodup_cons.1 hnd).2

theorem lookup_name (e : SourceEntry) : e.afterPolicy.lookup "name" = e.name.map .text := by
  rw [afterPolicy]
  cases e.name with
  | none =>
    refine List.lookup_eq_none_iff.2 fun f hf => ?_
    simpa using (Origin.ne_nameKey hf).symm
  | some s => rfl

theorem eraseP_name (e : SourceEntry) : e.afterPolicy.eraseP (·.1 == "name") = e.origin.typed := by
  rw [afterPolicy]
  cases e.name with
  | none => exact List.eraseP_of_forall_not fun f hf => by simpa using Origin.ne_nameKey hf
  | some s => rfl

theorem policy_ofValue (p : Policy) : Policy.ofValue (.text p.name) = .ok p := by
  cases p <;> rfl

/-- **An entry is read back from its keys.** -/
theorem ofPairs_pairs (e : SourceEntry) : ofPairs (Field.pairs e.fields) = .ok e := by
  have hpolicy : Value.find? "policy" (Field.pairs e.fields) = some (.text e.policy.name) := by
    rw [Field.find?_pairs, fields_eq]
    rfl
  obtain ⟨named, htaken, hnamed⟩ := Field.exists_takeOut_pairs "policy" e.fields
  rw [fields_eq, List.eraseP_cons_of_pos (by rfl)] at hnamed
  have hnd : (named.map (·.1)).Nodup := (hnamed.map _).nodup_iff.2 e.nodup_afterPolicy
  have hname : Value.find? "name" (Field.pairs named) = e.name.map .text := by
    rw [Field.find?_pairs, lookup_eq_of_perm hnamed hnd, lookup_name, Option.map_map]
    rfl
  obtain ⟨rest, hleft, hrest⟩ := Field.exists_takeOut_pairs "name" named
  have htyped : rest.Perm e.origin.typed := by
    have hone : named.Pairwise fun f g => (f.1 == "name") = true → (g.1 == "name") = true → False :=
      (List.pairwise_map.1 hnd).imp fun hne hf hg =>
        hne ((beq_iff_eq.1 hf).trans (beq_iff_eq.1 hg).symm)
    have herase := hnamed.eraseP (·.1 == "name") hone
    rw [eraseP_name] at herase
    exact hrest.trans herase
  have hunknown : unknownKey? e.origin.type (Field.pairs rest) = none := unknownKey?_pairs htyped
  have hread : (Policy.ofValue (.text e.policy.name)).mapError (fun _ => Fault.invalidPolicy) =
      .ok e.policy := by
    rw [policy_ofValue]
    rfl
  simp only [ofPairs, hpolicy, htaken, hname, hleft, originOf_pairs htyped, hread]
  obtain ⟨o, policy, name⟩ := e
  cases name with
  | none =>
    simp only [Option.map_none, bind, Except.bind, pure, Except.pure, hunknown]
  | some s =>
    simp only [Option.map_some, Value.asText?, Value.untag, bind, Except.bind, pure, Except.pure,
      hunknown]

/-- **A written entry is read back**, wherever it stands in a document. -/
theorem read_tree (d : Document) (depth : Nat) (e : SourceEntry) (budget : Nat) :
    read d (depth + 1) e.tree.node budget = .ok (e, budget) := by
  have hnode : d.follow e.tree.node =
      .mapping none (Tree.entryNodes (Field.mapping e.fields)) := rfl
  have hvalue : d.value? (depth + 1) e.tree.node budget =
      some (.mapping (Field.pairs e.fields), budget) :=
    Field.value?_mapping d depth e.nodup_fields budget
  simp only [read, hnode, hvalue, Value.untag, ofPairs_pairs]
  rfl

end SourceEntry

end ClusterSync
