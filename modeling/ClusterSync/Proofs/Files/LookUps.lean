/-
# What a walk looks at

A walk looks up the place of every name that it comes to, and nothing else (`FileTree.lookUps`).
So it ends in the same way in two trees that have the same at these places (`walk_congr`). The
same is true of what is read in the end: for the clusters in a directory, its path is walked, its
cluster files are looked for, and the name of each that is there is walked from the directory
(`Consults`, `readClusters_congr`).

Which places these are depends on the links that are met. Names that do not go up stay below the
directory in which they begin; a few that do may stand in front of them, no more than there are
directories to go up to (`staysWithin`). If the names of a walk are of this kind, and those of
every link below a place, the walk stays below that place, in what it looks up and where it ends
(`walksBelow`).
-/

import ClusterSync.Proofs.Source.Directory

namespace ClusterSync
namespace FileTree

open Files

variable {tree after : FileTree} {follow : Bool} {links depth : Nat}
  {here top below dir : Place} {front rest : List String} {name path file : String}

/-- The places that a walk looks up. -/
def lookUps (tree : FileTree) (follow : Bool) (links : Nat) (here : Place) :
    List String → List Place
  | [] => []
  | name :: rest =>
    if name = "" ∨ name = "." then lookUps tree follow links here rest
    else if name = ".." then lookUps tree follow links here.dropLast rest
    else
      match nameError? name with
      | some _ => []
      | none =>
        (here ++ [name]) ::
          match tree.get? (here ++ [name]) with
          | some .directory => lookUps tree follow links (here ++ [name]) rest
          | some (.link target) =>
            if rest.isEmpty && !follow then []
            else
              match links with
              | 0 => []
              | links + 1 =>
                lookUps tree follow links (if target.startsWith "/" then [] else here)
                  (names target ++ rest)
          | _ => []
termination_by rest => (links, rest.length)

/-- The place of a name that may stand for an entry is looked up. -/
theorem mem_lookUps_self (hstay : ¬ (name = "" ∨ name = ".")) (hup : name ≠ "..")
    (hname : nameError? name = none) :
    here ++ [name] ∈ tree.lookUps follow links here (name :: rest) := by
  rw [lookUps, if_neg hstay, if_neg hup, hname]
  exact List.mem_cons_self ..

/-- **A walk depends on nothing but what it looks up.** -/
theorem walk_congr
    (h : ∀ p ∈ tree.lookUps follow links here rest, after.get? p = tree.get? p) :
    after.walk follow links here rest = tree.walk follow links here rest := by
  fun_induction tree.walk follow links here rest with
  | case1 links here => rw [walk]
  | case2 links here name rest hstay ih =>
    rw [lookUps, if_pos hstay] at h
    rw [walk, if_pos hstay]
    exact ih h
  | case3 links here rest hstay ih =>
    rw [lookUps, if_neg hstay, if_pos rfl] at h
    rw [walk, if_neg hstay, if_pos rfl]
    exact ih h
  | case4 links here name rest hstay hup e hname =>
    rw [walk, if_neg hstay, if_neg hup, hname]
  | case5 links here name rest hstay hup hname hdir ih =>
    have hhere := h _ (mem_lookUps_self hstay hup hname)
    rw [lookUps, if_neg hstay, if_neg hup, hname] at h
    simp only [hdir, List.forall_mem_cons] at h
    rw [walk, if_neg hstay, if_neg hup, hname]
    simp only [hhere, hdir]
    exact ih h.2
  | case6 links here name rest hstay hup hname target hlink hend =>
    have hhere := h _ (mem_lookUps_self hstay hup hname)
    rw [walk, if_neg hstay, if_neg hup, hname]
    simp only [hhere, hlink, hend, if_true]
  | case7 here name rest hstay hup hname target hlink hend =>
    have hhere := h _ (mem_lookUps_self hstay hup hname)
    rw [walk, if_neg hstay, if_neg hup, hname]
    simp only [hhere, hlink, hend, Bool.false_eq_true, if_false]
  | case8 here name rest hstay hup hname target hlink hend links ih =>
    have hhere := h _ (mem_lookUps_self hstay hup hname)
    rw [lookUps, if_neg hstay, if_neg hup, hname] at h
    simp only [hlink, hend, List.forall_mem_cons] at h
    rw [walk, if_neg hstay, if_neg hup, hname]
    simp only [hhere, hlink, hend]
    exact ih h.2
  | case9 links here name rest hstay hup hname bytes hfile hend =>
    have hhere := h _ (mem_lookUps_self hstay hup hname)
    rw [walk, if_neg hstay, if_neg hup, hname]
    simp only [hhere, hfile, hend, if_true]
  | case10 links here name rest hstay hup hname bytes hfile hend =>
    have hhere := h _ (mem_lookUps_self hstay hup hname)
    rw [walk, if_neg hstay, if_neg hup, hname]
    simp only [hhere, hfile, hend, Bool.false_eq_true, if_false]
  | case11 links here name rest hstay hup hname hnone hend =>
    have hhere := h _ (mem_lookUps_self hstay hup hname)
    rw [walk, if_neg hstay, if_neg hup, hname]
    simp only [hhere, hnone, hend, if_true]
  | case12 links here name rest hstay hup hname hnone hend =>
    have hhere := h _ (mem_lookUps_self hstay hup hname)
    rw [walk, if_neg hstay, if_neg hup, hname]
    simp only [hhere, hnone, hend, Bool.false_eq_true, if_false]

/-! ### What reading depends on -/

/-- The places that are looked up where a path is followed from a directory. -/
def lookUpsOf (tree : FileTree) (dir : Place) (path : String) : List Place :=
  tree.lookUps true maxLinks (if path.startsWith "/" then [] else dir) (names path)

theorem locate_congr (h : ∀ p ∈ tree.lookUpsOf dir path, after.get? p = tree.get? p) :
    after.locate true dir path = tree.locate true dir path := by
  rw [locate, locate, walk_congr h]

theorem directory?_congr (h : ∀ p ∈ tree.lookUpsOf [] path, after.get? p = tree.get? p) :
    after.directory? path = tree.directory? path := by
  rw [directory?, directory?, locate_congr h]

theorem attributes?_congr (h : ∀ p ∈ tree.lookUpsOf dir file, after.get? p = tree.get? p) :
    after.attributes? dir file = tree.attributes? dir file := by
  rw [attributes?, attributes?, readText, readText, read, read, locate_congr h]

/-- The places that are looked at where the clusters of a directory are read: those on the way to
it, those of its cluster files, and those to which the files that are there lead. -/
inductive Consults (tree : FileTree) (path : String) : Place → Prop
  | way {place : Place} (way : place ∈ tree.lookUpsOf [] path) : Consults tree path place
  | entry {dir : Place} (target : tree.directory? path = some dir) (cluster : String) :
      Consults tree path (dir ++ [ClusterFile.name cluster])
  | file {dir place : Place} {cluster : String} {entry : Entry}
      (target : tree.directory? path = some dir)
      (present : tree.get? (dir ++ [ClusterFile.name cluster]) = some entry)
      (way : place ∈ tree.lookUpsOf dir (ClusterFile.name cluster)) : Consults tree path place

/-- **Reading a directory depends on nothing but what it looks at.** -/
theorem readClusters_congr (h : ∀ p, tree.Consults path p → after.get? p = tree.get? p) :
    after.readClusters path = tree.readClusters path := by
  have hdirectory := directory?_congr fun p hp => h p (.way hp)
  rw [readClusters, readClusters, hdirectory]
  cases target : tree.directory? path with
  | none => rfl
  | some dir =>
    refine congrArg Except.ok (Table.ext_get? fun cluster => Option.ext fun data => ?_)
    have hentry := h _ (.entry target cluster)
    rw [get?_clustersIn, get?_clustersIn, hentry]
    cases hget : tree.get? (dir ++ [ClusterFile.name cluster]) with
    | none => simp
    | some entry => rw [attributes?_congr fun p hp => h p (.file target hget hp)]

/-! ### Walks that stay below a place -/

/-- Do names stay within a directory that is so deep, if the entries do that they come to? Only
the first of them may go up, and not too far. -/
def staysWithin (depth : Nat) : List String → Bool
  | [] => true
  | name :: rest =>
    if name = "" ∨ name = "." then staysWithin depth rest
    else if name = ".." then decide (0 < depth) && staysWithin (depth - 1) rest
    else !rest.contains ".."

/-- Behind a name that may stand for an entry, none goes up. -/
theorem not_mem_of_staysWithin (hstay : ¬ (name = "" ∨ name = ".")) (hup : name ≠ "..")
    (h : staysWithin depth (name :: rest) = true) : ".." ∉ rest := by
  rw [staysWithin, if_neg hstay, if_neg hup] at h
  simpa using h

theorem staysWithin_of_not_mem (h : ".." ∉ rest) : staysWithin depth rest = true := by
  induction rest with
  | nil => rfl
  | cons name rest ih =>
    obtain ⟨hup, hrest⟩ : ".." ≠ name ∧ ".." ∉ rest := by simpa using h
    rw [staysWithin]
    split
    · exact ih hrest
    · rw [if_neg hup.symm]
      simpa using hrest

theorem staysWithin_append (h : staysWithin depth front = true) (hrest : ".." ∉ rest) :
    staysWithin depth (front ++ rest) = true := by
  induction front generalizing depth with
  | nil => exact staysWithin_of_not_mem hrest
  | cons name front ih =>
    rw [staysWithin] at h
    rw [List.cons_append, staysWithin]
    split at h
    · next hstay =>
      rw [if_pos hstay]
      exact ih h
    · next hstay =>
      rw [if_neg hstay]
      split at h
      · next hup =>
        rw [if_pos hup]
        rw [Bool.and_eq_true] at h ⊢
        exact ⟨h.1, ih h.2⟩
      · next hup =>
        rw [if_neg hup]
        simp only [Bool.not_eq_true', List.contains_eq_mem, decide_eq_false_iff_not] at h ⊢
        simp [h, hrest]

/-- Does a link stay within the place below which it stands in a directory so deep? -/
def IsInner (depth : Nat) (target : String) : Prop :=
  target.startsWith "/" = false ∧ staysWithin depth (names target) = true

instance (depth : Nat) (target : String) : Decidable (IsInner depth target) :=
  inferInstanceAs (Decidable (_ ∧ _))

/-- Do all links below a place stay below it? -/
def HasInnerLinks (tree : FileTree) (top : Place) : Prop :=
  ∀ below name target, tree.get? (top ++ below ++ [name]) = some (.link target) →
    IsInner below.length target

theorem prefix_child (hhere : top ++ below = here) (name : String) : top <+: here ++ [name] := by
  rw [← hhere, List.append_assoc]
  exact List.prefix_append top (below ++ [name])

/-- **A walk stays below a place**, in what it looks up and where it ends, if the names and all
links below the place do. -/
theorem walksBelow (follow : Bool) (links : Nat) (inner : tree.HasInnerLinks top)
    (h : staysWithin below.length rest = true) :
    (∀ p ∈ tree.lookUps follow links (top ++ below) rest, top <+: p) ∧
      ∀ spot, tree.walk follow links (top ++ below) rest = .ok spot → top <+: spot.place := by
  generalize hhere : top ++ below = here
  fun_induction tree.walk follow links here rest generalizing below with
  | case1 links here =>
    subst hhere
    refine ⟨by simp [lookUps], fun spot hspot => ?_⟩
    obtain rfl := Except.ok.inj hspot
    exact List.prefix_append top below
  | case2 links here name rest hstay ih =>
    rw [staysWithin, if_pos hstay] at h
    rw [lookUps, if_pos hstay]
    exact ih h hhere
  | case3 links here rest hstay ih =>
    -- The names go up, and there is a directory below the place to go up from.
    rw [staysWithin, if_neg hstay, if_pos rfl, Bool.and_eq_true, decide_eq_true_iff] at h
    have hne : below ≠ [] := List.ne_nil_of_length_pos h.1
    have hdrop : top ++ below.dropLast = here.dropLast := by
      rw [← hhere, List.dropLast_append_of_ne_nil hne]
    rw [lookUps, if_neg hstay, if_pos rfl]
    refine ih ?_ hdrop
    rw [List.length_dropLast]
    exact h.2
  | case4 links here name rest hstay hup e hname =>
    rw [lookUps, if_neg hstay, if_neg hup, hname]
    exact ⟨by simp, fun spot hspot => by cases hspot⟩
  | case5 links here name rest hstay hup hname hdir ih =>
    have hbelow := prefix_child hhere name
    have hnext : top ++ (below ++ [name]) = here ++ [name] := by
      rw [← hhere, List.append_assoc]
    have hrest := ih (staysWithin_of_not_mem (not_mem_of_staysWithin hstay hup h)) hnext
    rw [lookUps, if_neg hstay, if_neg hup, hname]
    simp only [hdir, List.forall_mem_cons]
    exact ⟨⟨hbelow, hrest.1⟩, hrest.2⟩
  | case8 here name rest hstay hup hname target hlink hend links ih =>
    -- The link stays, and behind it no name goes up.
    have hbelow := prefix_child hhere name
    obtain ⟨hrelative, htarget⟩ := inner below name target (hhere ▸ hlink)
    have hfrom : top ++ below = if target.startsWith "/" then [] else here := by
      rw [hrelative]
      exact hhere
    have hrest := ih (staysWithin_append htarget (not_mem_of_staysWithin hstay hup h)) hfrom
    rw [lookUps, if_neg hstay, if_neg hup, hname]
    simp only [hlink, hend, Bool.false_eq_true, if_false, List.forall_mem_cons]
    exact ⟨⟨hbelow, hrest.1⟩, hrest.2⟩
  -- In the other cases the walk ends at the name.
  | case6 links here name rest hstay hup hname target hlink hend =>
    have hbelow := prefix_child hhere name
    rw [lookUps, if_neg hstay, if_neg hup, hname]
    simp only [hlink, hend, if_true, List.forall_mem_singleton]
    exact ⟨hbelow, fun spot hspot => Except.ok.inj hspot ▸ hbelow⟩
  | case7 here name rest hstay hup hname target hlink hend =>
    have hbelow := prefix_child hhere name
    rw [lookUps, if_neg hstay, if_neg hup, hname]
    simp only [hlink, hend, Bool.false_eq_true, if_false, List.forall_mem_singleton]
    exact ⟨hbelow, fun spot hspot => by cases hspot⟩
  | case9 links here name rest hstay hup hname bytes hfile hend =>
    have hbelow := prefix_child hhere name
    rw [lookUps, if_neg hstay, if_neg hup, hname]
    simp only [hfile, List.forall_mem_singleton]
    exact ⟨hbelow, fun spot hspot => Except.ok.inj hspot ▸ hbelow⟩
  | case10 links here name rest hstay hup hname bytes hfile hend =>
    have hbelow := prefix_child hhere name
    rw [lookUps, if_neg hstay, if_neg hup, hname]
    simp only [hfile, List.forall_mem_singleton]
    exact ⟨hbelow, fun spot hspot => by cases hspot⟩
  | case11 links here name rest hstay hup hname hnone hend =>
    have hbelow := prefix_child hhere name
    rw [lookUps, if_neg hstay, if_neg hup, hname]
    simp only [hnone, List.forall_mem_singleton]
    exact ⟨hbelow, fun spot hspot => Except.ok.inj hspot ▸ hbelow⟩
  | case12 links here name rest hstay hup hname hnone hend =>
    have hbelow := prefix_child hhere name
    rw [lookUps, if_neg hstay, if_neg hup, hname]
    simp only [hnone, List.forall_mem_singleton]
    exact ⟨hbelow, fun spot hspot => by cases hspot⟩

/-- Names that stay or name directories pass a walk on to the last of these. -/
theorem walks_pass (follow : Bool) (links : Nat) (rest : List String)
    (hfront : ∀ name ∈ front, name = "" ∨ IsEntryName name)
    (hdirs : ∀ p, p ≠ [] → p <+: front.filter (!·.isEmpty) →
      tree.get? (here ++ p) = some .directory) :
    tree.walk follow links here (front ++ rest) =
        tree.walk follow links (here ++ front.filter (!·.isEmpty)) rest ∧
      ∀ q ∈ tree.lookUps follow links here (front ++ rest),
        (∃ p, p ≠ [] ∧ p <+: front.filter (!·.isEmpty) ∧ q = here ++ p) ∨
          q ∈ tree.lookUps follow links (here ++ front.filter (!·.isEmpty)) rest := by
  induction front generalizing here with
  | nil =>
    rw [List.filter_nil, List.append_nil, List.nil_append]
    exact ⟨rfl, fun q hq => .inr hq⟩
  | cons name front ih =>
    have hothers : ∀ n ∈ front, n = "" ∨ IsEntryName n :=
      fun n hn => hfront n (List.mem_cons_of_mem name hn)
    rcases hfront name (List.mem_cons_self ..) with rfl | hname
    · have hfilter : ("" :: front).filter (!·.isEmpty) = front.filter (!·.isEmpty) :=
        List.filter_cons_of_neg (by decide)
      rw [hfilter] at hdirs ⊢
      rw [List.cons_append, walk, lookUps, if_pos (.inl rfl), if_pos (.inl rfl)]
      exact ih hothers hdirs
    · have hfilter : (name :: front).filter (!·.isEmpty) = name :: front.filter (!·.isEmpty) := by
        refine List.filter_cons_of_pos ?_
        simpa [String.isEmpty_iff] using hname.ne_empty
      rw [hfilter] at hdirs ⊢
      have hdir : tree.get? (here ++ [name]) = some .directory :=
        hdirs [name] (List.cons_ne_nil name []) (by simp)
      have hbeyond : ∀ p, p ≠ [] → p <+: front.filter (!·.isEmpty) →
          tree.get? (here ++ [name] ++ p) = some .directory := by
        intro p _ hp
        rw [List.append_assoc, List.singleton_append]
        exact hdirs (name :: p) (List.cons_ne_nil name p) (List.cons_prefix_cons.2 ⟨rfl, hp⟩)
      obtain ⟨hwalk, hlook⟩ := ih hothers hbeyond
      rw [List.append_assoc, List.singleton_append] at hwalk hlook
      have hstay : ¬ (name = "" ∨ name = ".") := fun h => h.elim hname.ne_empty hname.ne_here
      rw [List.cons_append, walk, lookUps, if_neg hstay, if_neg hstay, if_neg hname.ne_up,
        if_neg hname.ne_up, hname.allowed]
      simp only [hdir, List.forall_mem_cons]
      refine ⟨hwalk, .inl ⟨[name], List.cons_ne_nil name [], by simp, rfl⟩, fun q hq => ?_⟩
      rcases hlook q hq with ⟨p, -, hprefix, rfl⟩ | hrest
      · refine .inl ⟨name :: p, List.cons_ne_nil name p, List.cons_prefix_cons.2 ⟨rfl, hprefix⟩, ?_⟩
        rw [List.append_assoc, List.singleton_append]
      · exact .inr hrest

end FileTree
end ClusterSync
