/-
# Names that lead nowhere else

An operation on a path walks it from a directory. Where the path is one bare name, with no
slash and no step upwards in it, the walk looks at one place alone: the directory continued
by the name (`FileTree.locate_bare`). The operations on such a name are read off here once
(`write_bare`, `remove_entryName`, `rename_entryName`, `leadsSomewhere_bare`), with the refusal
of a name that no entry may have.

No file system has an entry of any other name. A tree whose names are all of this kind
`HasEntryNames`, and what a directory of it lists can be operated on by name.
-/

import ClusterSync.Files.Tree
import ClusterSync.Proofs.Table
import ClusterSync.Proofs.Text

namespace ClusterSync
namespace Files

/-- A name that leads to no other directory. -/
structure IsBare (name : String) : Prop where
  ne_empty : name ≠ ""
  ne_here : name ≠ "."
  ne_up : name ≠ ".."
  noSlash : '/' ∉ name.toList

/-- A name that an entry may have. -/
structure IsEntryName (name : String) : Prop extends IsBare name where
  allowed : nameError? name = none

instance (name : String) : Decidable (IsEntryName name) :=
  decidable_of_iff ((name ≠ "" ∧ name ≠ "." ∧ name ≠ ".." ∧ '/' ∉ name.toList) ∧
      nameError? name = none)
    ⟨fun ⟨⟨h₁, h₂, h₃, h₄⟩, h⟩ => ⟨⟨h₁, h₂, h₃, h₄⟩, h⟩,
      fun ⟨⟨h₁, h₂, h₃, h₄⟩, h⟩ => ⟨⟨h₁, h₂, h₃, h₄⟩, h⟩⟩

theorem nameError?_eq_none_iff {name : String} :
    nameError? name = none ↔ '\x00' ∉ name.toList ∧ name.utf8ByteSize ≤ maxName := by
  unfold nameError? Text.size
  split
  · next h => simp [List.contains_iff_mem.1 h]
  · next h =>
    have hz : '\x00' ∉ name.toList := fun hm => h (List.contains_iff_mem.2 hm)
    split
    · next hl => simp [Nat.not_le.2 hl]
    · next hl => simp [hz, Nat.not_lt.1 hl]

/-- A path without a slash is one name. -/
theorem names_of_not_mem {path : String} (h : '/' ∉ path.toList) : names path = [path] := by
  rw [names, Text.splitOn_eq, List.splitOn_eq_singleton h, List.map_singleton,
    String.ofList_toList]

/-- The names in a path with a slash are those before it and those behind it. -/
theorem names_append_slash (a b : String) : names (a ++ "/" ++ b) = names a ++ names b := by
  have hlist : (a ++ "/" ++ b).toList = a.toList ++ '/' :: b.toList := by simp
  rw [names, names, names, hlist, Text.splitOn_eq, Text.splitOn_eq, Text.splitOn_eq,
    List.splitOn_append_cons_self, List.map_append]

theorem IsBare.names_eq {name : String} (h : IsBare name) : names name = [name] :=
  names_of_not_mem h.noSlash

theorem IsBare.startsWith_slash {name : String} (h : IsBare name) :
    name.startsWith "/" = false := by
  rw [String.startsWith_string_eq_false_iff]
  intro hp
  exact h.noSlash (hp.subset (by simp))

end Files

namespace FileTree

open Files

variable {tree : FileTree} {dir : Place} {name : String}

/-- Do all entries have names that an entry may have? -/
def HasEntryNames (tree : FileTree) : Prop :=
  ∀ place entry, tree.get? place = some entry → ∀ name ∈ place, IsEntryName name

theorem hasEntryNames_iff :
    tree.HasEntryNames ↔ ∀ e ∈ tree.entries, ∀ name ∈ e.1, IsEntryName name :=
  ⟨fun h e he => h e.1 e.2 (Table.mem_entries_iff.1 he),
    fun h _ _ hget => h _ (Table.mem_entries_iff.2 hget)⟩

instance : Decidable tree.HasEntryNames := decidable_of_iff _ hasEntryNames_iff.symm

/-- Does nothing stand at a place, or a file? Then a file written there neither meets a
directory nor goes where a link leads. -/
def IsWritable (tree : FileTree) (place : Place) : Prop :=
  ∀ entry, tree.get? place = some entry → entry.isFile = true

instance (place : Place) : Decidable (tree.IsWritable place) :=
  decidable_of_iff ((tree.get? place).all Entry.isFile = true) (Option.all_eq_true ..)

theorem IsWritable.ne_directory {place : Place} (h : tree.IsWritable place) :
    tree.get? place ≠ some .directory := fun heq => by simpa [Entry.isFile] using h _ heq

theorem IsWritable.ne_link {place : Place} (h : tree.IsWritable place) (target : String) :
    tree.get? place ≠ some (.link target) := fun heq => by simpa [Entry.isFile] using h _ heq

/-- No file is in the way of another. -/
theorem IsWritable.insert {place : Place} (h : tree.IsWritable place) (other : Place)
    (bytes : ByteArray) : IsWritable (tree.insert other (.file bytes)) place := by
  intro entry hentry
  rw [Table.get?_insert] at hentry
  split at hentry
  · exact Option.some.inj hentry ▸ rfl
  · exact h entry hentry

theorem IsWritable.erase {place : Place} (h : tree.IsWritable place) (other : Place) :
    IsWritable (tree.erase other) place := by
  intro entry hentry
  rw [Table.get?_erase] at hentry
  split at hentry
  · cases hentry
  · exact h entry hentry

/-- **A bare name is looked up at one place.** With `follow` this needs that no link stands
there. -/
theorem locate_bare (follow : Bool) (h : IsBare name)
    (hlink : follow = true → ∀ target, tree.get? (dir ++ [name]) ≠ some (.link target)) :
    tree.locate follow dir name =
      match nameError? name with
      | some e => .error e
      | none => .ok ⟨dir ++ [name], tree.get? (dir ++ [name])⟩ := by
  have hne : name.isEmpty = false := by
    rw [Bool.eq_false_iff]
    exact fun he => h.ne_empty (String.isEmpty_iff.1 he)
  rw [locate, hne, h.startsWith_slash, h.names_eq]
  by_cases hz : name.toList.contains '\x00' = true
  · rw [nameError?, if_pos hz, if_pos hz]
    rfl
  · rw [if_neg (by simp), if_neg hz, if_neg (by simp)]
    rw [walk, if_neg (by simp [h.ne_empty, h.ne_here]), if_neg h.ne_up]
    cases nameError? name with
    | some e => rfl
    | none =>
      simp only [List.isEmpty_nil, Bool.true_and, if_true]
      cases hg : tree.get? (dir ++ [name]) with
      | none => rfl
      | some entry =>
        cases entry with
        | file bytes => rfl
        | directory => exact walk.eq_1 ..
        | link target =>
          cases follow with
          | false => rfl
          | true => exact absurd hg (hlink rfl target)

theorem locate_entryName (h : IsEntryName name) :
    tree.locate false dir name = .ok ⟨dir ++ [name], tree.get? (dir ++ [name])⟩ := by
  rw [locate_bare false h.toIsBare (by simp), h.allowed]

theorem write_bare (h : IsBare name) (hw : tree.IsWritable (dir ++ [name])) (bytes : ByteArray) :
    tree.write dir name bytes =
      match nameError? name with
      | some e => .error e
      | none => .ok (tree.insert (dir ++ [name]) (.file bytes)) := by
  rw [write, locate_bare true h fun _ => hw.ne_link]
  cases nameError? name with
  | some e => rfl
  | none =>
    cases hg : tree.get? (dir ++ [name]) with
    | none => simp [bind, Except.bind, pure, Except.pure]
    | some entry =>
      cases entry with
      | directory => exact absurd hg hw.ne_directory
      | link target => exact absurd hg (hw.ne_link target)
      | file old => simp [bind, Except.bind, pure, Except.pure]

theorem remove_entryName (h : IsEntryName name) :
    tree.remove dir name =
      match tree.get? (dir ++ [name]) with
      | none => .error .notFound
      | some .directory => .error .isDirectory
      | some _ => .ok (tree.erase (dir ++ [name])) := by
  rw [remove, locate_entryName h]
  simp only [bind, Except.bind, pure, Except.pure]
  cases hg : tree.get? (dir ++ [name]) with
  | none => rfl
  | some entry => cases entry <;> rfl

theorem remove_cases (h : IsEntryName name) :
    (∃ e, tree.remove dir name = .error e) ∨
      tree.remove dir name = .ok (tree.erase (dir ++ [name])) := by
  rw [remove_entryName h]
  split
  · exact .inl ⟨_, rfl⟩
  · exact .inl ⟨_, rfl⟩
  · exact .inr rfl

theorem rename_entryName {target : String} (h : IsEntryName name) (ht : IsEntryName target) :
    tree.rename dir name target =
      match tree.get? (dir ++ [name]), tree.get? (dir ++ [target]) with
      | none, _ => .error .notFound
      | some _, some .directory => .error .isDirectory
      | some entry, _ => .ok ((tree.erase (dir ++ [name])).insert (dir ++ [target]) entry) := by
  rw [rename, locate_entryName h, locate_entryName ht]
  rfl

theorem leadsSomewhere_bare (h : IsBare name) (hw : tree.IsWritable (dir ++ [name])) :
    tree.leadsSomewhere dir name =
      ((nameError? name).isNone && (tree.get? (dir ++ [name])).isSome) := by
  rw [leadsSomewhere, locate_bare true h fun _ => hw.ne_link]
  cases nameError? name with
  | some e => rfl
  | none => rfl

/-- A file that stands at a name is read under it. -/
theorem readText_bare (h : IsEntryName name)
    (hlink : ∀ target, tree.get? (dir ++ [name]) ≠ some (.link target)) :
    tree.readText dir name =
      match tree.get? (dir ++ [name]) with
      | none => .error .notFound
      | some (.file bytes) =>
        match String.fromUTF8? bytes with
        | some text => .ok text
        | none => .error .notText
      | some _ => .error .isDirectory := by
  rw [readText, read, locate_bare true h.toIsBare fun _ => hlink, h.allowed]
  simp only [bind, Except.bind, pure, Except.pure]
  cases tree.get? (dir ++ [name]) with
  | none => rfl
  | some entry =>
    cases entry with
    | file bytes => cases String.fromUTF8? bytes <;> rfl
    | directory => rfl
    | link target => rfl

theorem fromUTF8?_toUTF8 (text : String) : String.fromUTF8? text.toUTF8 = some text :=
  dif_pos text.isValidUTF8

theorem readText_file (h : IsEntryName name) {text : String}
    (hget : tree.get? (dir ++ [name]) = some (.file text.toUTF8)) :
    tree.readText dir name = .ok text := by
  rw [readText_bare h (by simp [hget]), hget]
  simp only [fromUTF8?_toUTF8]

theorem directory?_entryName (h : IsEntryName name) (hd : tree.get? [name] = some .directory) :
    tree.directory? name = some [name] := by
  rw [directory?, locate_bare true h.toIsBare (by simp [hd]), h.allowed]
  simp [hd]

/-- The name under which a directory lists an entry, if the entry stands in it. -/
def nameIn? (dir : Place) (e : Place × Entry) : Option (String × Entry) :=
  match e.1.getLast? with
  | some name => if e.1.dropLast = dir then some (name, e.2) else none
  | none => none

theorem list_eq : tree.list dir = tree.entries.filterMap (nameIn? dir) := rfl

theorem nameIn?_eq_some_iff {e : Place × Entry} {x : String × Entry} :
    nameIn? dir e = some x ↔ e = (dir ++ [x.1], x.2) := by
  obtain ⟨place, entry⟩ := e
  rw [nameIn?]
  constructor
  · intro h
    cases hlast : place.getLast? with
    | none => simp [hlast] at h
    | some last =>
      simp only [hlast, Option.ite_none_right_eq_some, Option.some.injEq] at h
      obtain ⟨rfl, rfl⟩ := h
      obtain ⟨parent, rfl⟩ := List.getLast?_eq_some_iff.1 hlast
      rw [List.dropLast_concat]
  · intro h
    obtain ⟨rfl, rfl⟩ := Prod.mk.inj h
    simp

/-- **A directory lists what stands at its names.** -/
theorem mem_list_iff {entry : Entry} :
    (name, entry) ∈ tree.list dir ↔ tree.get? (dir ++ [name]) = some entry := by
  rw [list_eq, List.mem_filterMap, ← Table.mem_entries_iff]
  constructor
  · rintro ⟨e, hmem, hsome⟩
    exact nameIn?_eq_some_iff.1 hsome ▸ hmem
  · exact fun hmem => ⟨_, hmem, nameIn?_eq_some_iff.2 rfl⟩

/-- A directory lists no name twice. -/
theorem nodup_list (tree : FileTree) (dir : Place) : ((tree.list dir).map (·.1)).Nodup := by
  rw [list_eq, List.Nodup, List.pairwise_map]
  refine tree.sorted.filterMap _ fun a b hlt x hx y hy heq => ?_
  obtain rfl := nameIn?_eq_some_iff.1 hx
  obtain rfl := nameIn?_eq_some_iff.1 hy
  simp only [heq] at hlt
  exact Std.Irrefl.irrefl _ hlt

end FileTree
end ClusterSync
