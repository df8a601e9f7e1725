/-
# Attributes come back from documents

Words are written so that they mean what they are written for, and a text that would mean
something else is put between quotes. So every scalar is read back with its kind and its value
(`Scalar.read_tree`), and so are attributes (`Attribute.read_tree`, `Attributes.read_tree`) and
the body of a cluster file (`Attributes.ofFile_document`).

Two scalars have no document of their own: of a number that is none the payload is lost, and a
whole number that fits the signed words is read as one of them (`Scalar.IsProper`).
-/

import ClusterSync.Cluster.Reading
import ClusterSync.Cluster.Writing
import ClusterSync.Proofs.Table
import ClusterSync.Proofs.Text
import ClusterSync.Proofs.Yaml.Numbers
import ClusterSync.Proofs.Yaml.ReadingTrees

namespace ClusterSync

open Yaml

/-- Is the scalar the one that its document is read as? -/
def Scalar.IsProper : Scalar → Prop
  | unsigned u => 0x8000000000000000 ≤ u.toNat
  | float x => x.isNaN = false
  | _ => True

/-- Are all scalars of the attribute proper? -/
def Attribute.IsProper : Attribute → Prop
  | one s => s.IsProper
  | many items => ∀ s ∈ items, s.IsProper

/-- Are all attributes proper? -/
def Attributes.IsProper (data : Attributes) : Prop := ∀ e ∈ data.entries, e.2.IsProper

instance : (s : Scalar) → Decidable s.IsProper
  | .unsigned u => inferInstanceAs (Decidable (0x8000000000000000 ≤ u.toNat))
  | .float x => inferInstanceAs (Decidable (x.isNaN = false))
  | .null | .bool _ | .integer _ | .text _ => inferInstanceAs (Decidable True)

instance : (a : Attribute) → Decidable a.IsProper
  | .one s => inferInstanceAs (Decidable s.IsProper)
  | .many items => inferInstanceAs (Decidable (∀ s ∈ items, s.IsProper))

instance (data : Attributes) : Decidable data.IsProper :=
  inferInstanceAs (Decidable (∀ e ∈ data.entries, e.2.IsProper))

/-! ### Scalars -/

namespace Yaml

theorem isWord_null : IsWord "null" .null := ⟨by decide, by decide, by decide⟩

theorem isWord_bool (b : Bool) : IsWord (if b then "true" else "false") (.bool b) := by
  cases b
  · exact ⟨by decide, by decide, by decide⟩
  · exact ⟨by decide, by decide, by decide⟩

theorem intAtom?_ne_text {i : Int} (t : String) : intAtom? i ≠ some (.text t) := by
  unfold intAtom?
  split_ifs <;> simp

/-- A scalar without quotes that means a text means the text that it is. -/
theorem Atom.ofPlain_eq_text {s t : String} (h : Atom.ofPlain s = .text t) : t = s := by
  unfold Atom.ofPlain at h
  split at h
  · cases h
  · split at h
    · cases h
    · split at h
      · next a ha =>
        obtain ⟨i, -, hi⟩ := Option.bind_eq_some_iff.1 ha
        exact absurd (h ▸ hi) (intAtom?_ne_text t)
      · split at h
        · exact (Atom.text.inj h).symm
        · split at h
          · cases h
          · exact (Atom.text.inj h).symm

/-- **A text is written so that it is read as a text**, with quotes wherever it would mean
something else without them. -/
theorem ofScalar?_ofText (s : String) : Atom.ofScalar? none (Style.ofText s) s =
    some (.text s) := by
  have hwritten := isWritten s
  generalize Style.ofText s = style at hwritten
  cases hwritten with
  | plain hplain hother =>
    simp only [readsOtherwise, Bool.or_eq_false_iff] at hother
    cases hmeans : Atom.ofPlain s with
    | text t =>
      obtain rfl := Atom.ofPlain_eq_text hmeans
      exact congrArg some hmeans
    | _ => simp [hmeans] at hother
  | _ => rfl

theorem Document.asAtom_scalar (d : Document) {style : Style} {s : String} {a : Atom}
    (h : Atom.ofScalar? none style s = some a) : d.asAtom (.scalar none style s) = .ok a := by
  simp only [asAtom, follow, h]

end Yaml

/-- The word of a scalar. -/
theorem Yaml.IsWord.read {s : String} {a : Atom} (h : IsWord s a) (d : Document) :
    (Yaml.Tree.word s).HasWords ∧ Scalar.read d (Yaml.Tree.word s).node = Scalar.ofAtom a := by
  refine ⟨⟨h.ne_nil, h.plain⟩, ?_⟩
  have hmeans : Atom.ofScalar? none .plain s = some a := congrArg some h.means
  rw [Yaml.Tree.node, Scalar.read, d.asAtom_scalar hmeans]
  rfl

/-- **A scalar is read back with its kind and its value.** -/
theorem Scalar.read_tree {s : Scalar} (hs : s.IsProper) (d : Document) :
    s.tree.HasWords ∧ Scalar.read d s.tree.node = .ok s := by
  cases s with
  | null => exact isWord_null.read d
  | bool b => exact (isWord_bool b).read d
  | integer i =>
    have hlow : -0x8000000000000000 ≤ i.toInt := i.le_toInt
    have hhigh : i.toInt < 0x8000000000000000 := i.toInt_lt
    obtain ⟨hwords, hread⟩ := (isWord_int hlow (by omega)).read d
    refine ⟨hwords, hread.trans ?_⟩
    simp [ofAtom, hhigh]
  | unsigned u =>
    have hhigh : u.toNat < 0x10000000000000000 := u.toNat_lt
    have hu : 0x8000000000000000 ≤ u.toNat := hs
    obtain ⟨hwords, hread⟩ := (isWord_int (i := u.toNat) (by omega) (by omega)).read d
    refine ⟨hwords, hread.trans ?_⟩
    rw [ofAtom, if_neg (by omega)]
    simp
  | float x => exact (isWord_float hs).read d
  | text s =>
    refine ⟨trivial, ?_⟩
    rw [tree, Yaml.Tree.node, Scalar.read, d.asAtom_scalar (ofScalar?_ofText s)]
    rfl

/-! ### Attributes -/

theorem Scalar.node_tree (s : Scalar) : ∃ style t, s.tree.node = .scalar none style t := by
  cases s <;> exact ⟨_, _, rfl⟩

theorem mapM_read_tree {items : List Scalar} (h : ∀ s ∈ items, s.IsProper) (d : Document) :
    Yaml.Tree.ItemsHaveWords (items.map Scalar.tree) ∧
      (Yaml.Tree.itemNodes (items.map Scalar.tree)).mapM (Scalar.read d) = .ok items := by
  induction items with
  | nil => exact ⟨trivial, rfl⟩
  | cons s items ih =>
    obtain ⟨hwords, hread⟩ := Scalar.read_tree (h s (List.mem_cons_self ..)) d
    obtain ⟨hrest, hreads⟩ := ih fun x hx => h x (List.mem_cons_of_mem _ hx)
    refine ⟨⟨hwords, hrest⟩, ?_⟩
    rw [List.map_cons, Yaml.Tree.itemNodes, List.mapM_cons, hread, hreads]
    rfl

theorem Attribute.read_tree {a : Attribute} (ha : a.IsProper) (d : Document) :
    a.tree.HasWords ∧ Attribute.read d a.tree.node = .ok a := by
  cases a with
  | one s =>
    obtain ⟨hwords, hread⟩ := Scalar.read_tree ha d
    obtain ⟨style, t, hnode⟩ := s.node_tree
    refine ⟨hwords, ?_⟩
    rw [hnode] at hread
    have hone : Attribute.read d (.scalar none style t) =
        (return .one (← Scalar.read d (.scalar none style t))) := rfl
    rw [tree, hnode, hone, hread]
    rfl
  | many items =>
    obtain ⟨hwords, hread⟩ := mapM_read_tree ha d
    refine ⟨hwords, ?_⟩
    rw [tree, Yaml.Tree.node, Attribute.read]
    simp only [Document.follow, hread]
    rfl

theorem mapM_readEntry {entries : List (String × Attribute)} (h : ∀ e ∈ entries, e.2.IsProper)
    (d : Document) :
    Yaml.Tree.EntriesHaveWords (entries.map fun e => (e.1, e.2.tree)) ∧
      (Yaml.Tree.entryNodes (entries.map fun e => (e.1, e.2.tree))).mapM
        (readEntry d (Attribute.read d)) = .ok entries := by
  induction entries with
  | nil => exact ⟨trivial, rfl⟩
  | cons e entries ih =>
    obtain ⟨hwords, hread⟩ := Attribute.read_tree (h e (List.mem_cons_self ..)) d
    obtain ⟨hrest, hreads⟩ := ih fun x hx => h x (List.mem_cons_of_mem _ hx)
    refine ⟨⟨hwords, hrest⟩, ?_⟩
    have hentry : readEntry d (Attribute.read d)
        (.scalar none (Style.ofText e.1) e.1, e.2.tree.node) = .ok e := by
      simp only [readEntry, Document.asText, Document.follow, hread]
      rfl
    rw [List.map_cons, Yaml.Tree.entryNodes, List.mapM_cons, hentry, hreads]
    rfl

/-- **Attributes are read back.** -/
theorem Attributes.read_tree {data : Attributes} (h : data.IsProper) (d : Document) :
    data.tree.HasWords ∧ Attributes.read d data.tree.node = .ok data := by
  obtain ⟨hwords, hread⟩ := mapM_readEntry h d
  refine ⟨hwords, ?_⟩
  rw [tree, Yaml.Tree.node, Attributes.read]
  simp only [Document.asMapping, Document.follow]
  change (List.mapM (readEntry d (Attribute.read d)) _ >>= _) = _
  rw [hread]
  exact congrArg Except.ok (Table.ofList_entries data)

/-! ### Files -/

theorem Yaml.Tree.colon_mem_document {entries : List (String × Yaml.Tree)} (hne : entries ≠ []) :
    ':' ∈ (Yaml.Tree.mapping entries).document.toList := by
  obtain ⟨⟨key, value⟩, entries, rfl⟩ := List.exists_cons_of_ne_nil hne
  obtain ⟨more, hmore⟩ := exists_stack 0 (writeEntry 0 key value) (writeEntries 0 entries) []
  rw [List.append_nil] at hmore
  have hdocument : (mapping ((key, value) :: entries)).document.toList =
      stack 0 (writeEntries 0 ((key, value) :: entries)) := String.toList_ofList
  rw [hdocument, writeEntries_cons, hmore, List.mem_append, writeEntry]
  left
  split_ifs <;> simp

theorem Yaml.Document.readWhole_eq_ok {α : Type} {text : String} {d : Document} {a : α}
    {read : Document → Option Node → Read α} (h : Document.ofText text = d)
    (hwhole : d.whole = true) (hread : read d d.root = .ok a) :
    Document.readWhole text read = .ok a := by
  subst h
  simp [readWhole, hread, hwhole]

/-- **The body of a cluster file is read back**, if there is at least one attribute. -/
theorem Attributes.ofFile_document {data : Attributes} (h : data.IsProper)
    (hne : data.entries ≠ []) : Attributes.ofFile data.tree.document = .ok data := by
  have hmap : (data.entries.map fun e => (e.1, e.2.tree)) ≠ [] := by simpa using hne
  have htrim : Text.trim data.tree.document ≠ "" := by
    have hcolon := Text.mem_stripWhile (p := Text.isBlank)
      (Yaml.Tree.colon_mem_document hmap) (by decide)
    intro hnil
    have hchars := congrArg String.toList hnil
    rw [Text.trim, String.toList_ofList] at hchars
    exact List.not_mem_nil (hchars ▸ hcolon)
  obtain ⟨budget, hdocument⟩ : ∃ budget,
      Document.ofText data.tree.document = ⟨some data.tree.node, [], true, budget⟩ :=
    Yaml.Tree.ofText_document hmap (mapM_readEntry h ⟨none, [], true, 0⟩).1
  generalize hd : (⟨some data.tree.node, [], true, budget⟩ : Document) = d at hdocument
  have hroot : d.root = some data.tree.node := hd ▸ rfl
  have hwhole : d.whole = true := hd ▸ rfl
  have hnull : d.isNull data.tree.node = .ok false := rfl
  have hread : d.optional data.tree.node (Attributes.read d) = .ok (some data) := by
    rw [Document.optional, hnull, (Attributes.read_tree h d).2]
    rfl
  rw [ofFile, if_neg (by simpa using htrim)]
  refine Document.readWhole_eq_ok hdocument hwhole ?_
  simp only [hroot, hread]
  rfl

end ClusterSync
