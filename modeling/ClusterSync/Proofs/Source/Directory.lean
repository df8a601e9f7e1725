/-
# Which clusters a directory has

A directory has a cluster exactly if an entry is named for it and can be read as attributes
(`FileTree.get?_clustersIn`). What else stands in the directory makes no difference, and
neither does a file that cannot be read.

A file is read as what its text holds (`Attributes.ofFile_eq_ok_iff`): none if the text is blank
or a null, else the attributes that it is a document of. One document of attributes is not read:
the tag of a null with nothing behind it is a mapping without entries for who looks for a mapping,
but where a null may stand, a word for it has to come behind its tag.
-/

import ClusterSync.Proofs.Files.ClusterNames
import ClusterSync.Proofs.Results
import ClusterSync.Source.Directory

namespace ClusterSync

open Yaml (Read Document Node Style Fault)

namespace Yaml.Document

variable {d : Document} {n : Node} {data : Attributes}

/-- Does a node bear the tag of a null, with nothing behind it? The reader of what may be a null
wants a word for it there. -/
def IsTaggedNothing (d : Document) (n : Node) : Prop :=
  d.follow n = .scalar (some (coreTag "null")) .plain ""

/-- Where nothing is written, there are no attributes. No other scalar is read as attributes. -/
theorem eq_nothing_of_read {tag : Option String} {style : Style} {text : String}
    (h : d.follow n = .scalar tag style text) (hread : Attributes.read d n = .ok data) :
    style = .plain ∧ text = "" ∧ data = .empty := by
  rw [Attributes.read, asMapping, h] at hread
  by_cases hnothing : style = .plain ∧ text = ""
  · obtain ⟨rfl, rfl⟩ := hnothing
    exact ⟨rfl, rfl, (Except.ok.inj hread).symm⟩
  · cases style <;> simp_all [bind, Except.bind]

theorem eq_empty_of_isNull (h : d.isNull n = .ok true) (hread : Attributes.read d n = .ok data) :
    data = .empty := by
  cases hfollow : d.follow n with
  | scalar tag style text => exact (eq_nothing_of_read hfollow hread).2.2
  | _ => simp [isNull, hfollow] at h

theorem IsTaggedNothing.isNull_eq (h : d.IsTaggedNothing n) : d.isNull n = .error .malformed := by
  have hword : isNullWord "" = false := by decide
  rw [isNull, h]
  simp [hword]

/-- Nothing else is read and yet refused where a null may stand. -/
theorem isTaggedNothing_of_isNull {e : Fault} (h : d.isNull n = .error e)
    (hread : Attributes.read d n = .ok data) : d.IsTaggedNothing n := by
  cases hfollow : d.follow n with
  | scalar tag style text =>
    obtain ⟨rfl, rfl, -⟩ := eq_nothing_of_read hfollow hread
    rw [isNull, hfollow] at h
    cases tag with
    | none => cases h
    | some tag =>
      by_cases htag : tag = coreTag "null"
      · rw [IsTaggedNothing, hfollow, htag]
      · simp [htag] at h
  | _ => simp [isNull, hfollow, Attributes.read, asMapping, bind, Except.bind] at h hread

/-- **Where a null may stand**, there is one, or attributes are read. -/
theorem optional_read_iff :
    (do return (← d.optional n (Attributes.read d)).getD .empty : Read Attributes) = .ok data ↔
      d.isNull n = .ok true ∧ data = .empty ∨
        Attributes.read d n = .ok data ∧ ¬ d.IsTaggedNothing n := by
  rw [optional]
  cases hnull : d.isNull n with
  | error e =>
    simp only [bind, Except.bind, reduceCtorEq, false_and, false_or, false_iff, not_and, not_not]
    exact isTaggedNothing_of_isNull hnull
  | ok null =>
    cases null with
    | true =>
      constructor
      · intro h
        exact .inl ⟨rfl, (Except.ok.inj h).symm⟩
      · rintro (⟨-, rfl⟩ | ⟨hread, -⟩)
        · rfl
        · exact congrArg _ (eq_empty_of_isNull hnull hread).symm
    | false =>
      have htagged : ¬ d.IsTaggedNothing n := fun h => by simp [h.isNull_eq] at hnull
      cases Attributes.read d n <;> simp [bind, Except.bind, pure, Except.pure, htagged]

theorem readWhole_eq_ok_iff {α : Type} {text : String} {read : Document → Option Node → Read α}
    {a : α} : readWhole text read = .ok a ↔
      (ofText text).whole = true ∧ read (ofText text) (ofText text).root = .ok a := by
  rw [readWhole]
  cases hread : read (ofText text) (ofText text).root with
  | error e => simp
  | ok b => cases hwhole : (ofText text).whole <;> simp

end Yaml.Document

namespace Attributes

/-- Is a text a document of nothing or of a null? -/
def IsNullText (text : String) : Prop :=
  (Document.ofText text).whole = true ∧
    ∀ n ∈ (Document.ofText text).root, (Document.ofText text).isNull n = .ok true

/-- Is a text a document of the tag of a null, with nothing behind it? -/
def IsTaggedNothing (text : String) : Prop :=
  ∃ n ∈ (Document.ofText text).root, (Document.ofText text).IsTaggedNothing n

/-- The attributes that a text holds for a cluster: none if it is blank or a null, and else those
that it is a document of. The tag of a null on nothing does not count as such a document. -/
inductive Holds (text : String) : Attributes → Prop
  | blank (h : Text.trim text = "") : Holds text .empty
  | null (h : IsNullText text) : Holds text .empty
  | document {data : Attributes} (filled : Text.trim text ≠ "") (tag : ¬ IsTaggedNothing text)
      (h : ofDocument text = .ok data) : Holds text data

/-- **What a cluster file is read as** is what its text holds. -/
theorem ofFile_eq_ok_iff {text : String} {data : Attributes} :
    ofFile text = .ok data ↔ Holds text data := by
  rw [ofFile]
  by_cases hblank : Text.trim text = ""
  · rw [if_pos (String.isEmpty_iff.2 hblank)]
    constructor
    · intro h
      exact Except.ok.inj h ▸ .blank hblank
    · intro h
      cases h with
      | blank | null => rfl
      | document filled => exact absurd hblank filled
  · rw [if_neg (fun h => hblank (String.isEmpty_iff.1 h)), Document.readWhole_eq_ok_iff]
    have hholds : Holds text data ↔
        IsNullText text ∧ data = .empty ∨ ofDocument text = .ok data ∧ ¬ IsTaggedNothing text := by
      constructor
      · rintro (h | h | ⟨-, tag, h⟩)
        · exact absurd h hblank
        · exact .inl ⟨h, rfl⟩
        · exact .inr ⟨h, tag⟩
      · rintro (⟨h, rfl⟩ | ⟨h, tag⟩)
        · exact .null h
        · exact .document hblank tag h
    rw [hholds, ofDocument, Document.readWhole_eq_ok_iff, IsNullText, IsTaggedNothing]
    cases (Document.ofText text).root with
    | none =>
      simp only [Option.not_mem_none, Except.ok.injEq, false_imp_iff, implies_true, and_true,
        false_and, exists_false, not_false_iff]
      exact ⟨.inr, fun h => h.elim (fun ⟨hwhole, hempty⟩ => ⟨hwhole, hempty.symm⟩) id⟩
    | some n =>
      simp only [Option.mem_some_iff, forall_eq', exists_eq_left']
      rw [Document.optional_read_iff, and_or_left, and_assoc, and_assoc]

end Attributes

namespace FileTree

open Files

variable {tree : FileTree} {dir : Place} {file cluster path : String} {data : Attributes}

/-- **A file is read as what its text holds.** -/
theorem attributes?_file {bytes : ByteArray} (h : IsEntryName file)
    (hget : tree.get? (dir ++ [file]) = some (.file bytes)) :
    tree.attributes? dir file = some data ↔
      ∃ text, String.fromUTF8? bytes = some text ∧ Attributes.Holds text data := by
  rw [attributes?, readText_bare h (by simp [hget]), hget]
  cases htext : String.fromUTF8? bytes with
  | none => simp [htext]
  | some text =>
    simp only [htext, Option.some.injEq, exists_eq_left', ← Attributes.ofFile_eq_ok_iff,
      toOption_eq_some_iff]

theorem clusterIn?_eq_some_iff :
    tree.clusterIn? dir file = some (cluster, data) ↔
      file = ClusterFile.name cluster ∧ cluster ≠ "" ∧ '\n' ∉ cluster.toList ∧
        tree.attributes? dir file = some data := by
  rw [clusterIn?]
  constructor
  · intro h
    cases hc : ClusterFile.cluster? file with
    | none => simp [hc] at h
    | some c =>
      simp only [hc, Option.map_eq_some_iff, Prod.mk.injEq] at h
      obtain ⟨_, hdata, rfl, rfl⟩ := h
      obtain ⟨hfile, hne, hline⟩ := ClusterFile.cluster?_eq_some_iff.1 hc
      exact ⟨hfile, hne, hline, hdata⟩
  · rintro ⟨rfl, hne, hline, hdata⟩
    rw [ClusterFile.cluster?_eq_some_iff.2 ⟨rfl, hne, hline⟩]
    exact Option.map_eq_some_iff.2 ⟨data, hdata, rfl⟩

/-- **What a directory has of a cluster** is what can be read under its name. -/
theorem get?_clustersIn :
    (tree.clustersIn dir).get? cluster = some data ↔
      cluster ≠ "" ∧ '\n' ∉ cluster.toList ∧
        (∃ entry, tree.get? (dir ++ [ClusterFile.name cluster]) = some entry) ∧
        tree.attributes? dir (ClusterFile.name cluster) = some data := by
  rw [clustersIn, Table.get?_ofList]
  · rw [List.mem_filterMap]
    constructor
    · rintro ⟨⟨file, entry⟩, hmem, hsome⟩
      obtain ⟨rfl, hne, hline, hdata⟩ := clusterIn?_eq_some_iff.1 hsome
      exact ⟨hne, hline, ⟨entry, mem_list_iff.1 hmem⟩, hdata⟩
    · rintro ⟨hne, hline, ⟨entry, hentry⟩, hdata⟩
      exact ⟨(_, entry), mem_list_iff.2 hentry,
        clusterIn?_eq_some_iff.2 ⟨rfl, hne, hline, hdata⟩⟩
  · -- No name is listed twice, and so no cluster.
    rw [List.Nodup, List.pairwise_map]
    have hnames := List.pairwise_map.1 (nodup_list tree dir)
    refine hnames.filterMap _ fun a b hne x hx y hy heq => hne ?_
    rw [(clusterIn?_eq_some_iff.1 hx).1, (clusterIn?_eq_some_iff.1 hy).1, heq]

theorem read_directory {name : String} (target : tree.directory? path = some dir) :
    (Source.directory name path).read tree = .ok (tree.clustersIn dir) := by
  simp only [Source.directory, readClusters, target]
  rfl

/-- Can a cluster be read in the directory that a path leads to? -/
def Delivers (tree : FileTree) (path cluster : String) : Prop :=
  ∃ dir data, tree.directory? path = some dir ∧
    (∃ entry, tree.get? (dir ++ [ClusterFile.name cluster]) = some entry) ∧
    tree.attributes? dir (ClusterFile.name cluster) = some data

/-- The source of a directory has the clusters that can be read there, if their names are
those of cluster files. -/
theorem mem_keys_directory {name : String} {added : ClusterSet}
    (h : (Source.directory name path).read tree = .ok added) :
    cluster ∈ added.keys ↔
      cluster ≠ "" ∧ '\n' ∉ cluster.toList ∧ tree.Delivers path cluster := by
  cases target : tree.directory? path with
  | none =>
    simp only [Source.directory, readClusters, target] at h
    cases h
  | some dir =>
    obtain rfl := Except.ok.inj ((read_directory target).symm.trans h)
    rw [Table.mem_keys_iff_exists]
    constructor
    · rintro ⟨data, hdata⟩
      obtain ⟨hne, hline, hentry, hattr⟩ := get?_clustersIn.1 hdata
      exact ⟨hne, hline, dir, data, target, hentry, hattr⟩
    · rintro ⟨hne, hline, other, data, htarget, hentry, hattr⟩
      obtain rfl := Option.some.inj (target.symm.trans htarget)
      exact ⟨data, get?_clustersIn.2 ⟨hne, hline, hentry, hattr⟩⟩

end FileTree
end ClusterSync
