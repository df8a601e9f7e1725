/-
# What a read of an export can see

The subdirectory of a repository is named by a path that does not lead out of the export. Links in
the export may: they are followed, in the subdirectory's path and for each cluster file. So what
is read can depend on the files around the export (`exported_follows_link`).

`exported_footprint` says on which. Reading the export comes to the same over two trees that agree
where it looks outside of the export. And it looks nowhere outside if all links stay within the
export: each is relative, and goes up at its beginning only, not further than to the top of the
export. Then what is read is determined by the export alone.

The export stands below a directory of its own. Its places, and those on the way to it, are given
(`IsGiven`): they are the same whatever tree it is put into (`get?_mount_congr`).
-/

import ClusterSync.Proofs.Files.LookUps
import ClusterSync.Proofs.Files.Walks
import ClusterSync.Source.Export

namespace ClusterSync

open Files (Place IsEntryName)

namespace Files

variable {scratch directory : String}

/-- A path whose names are those of entries, or empty. -/
def IsPlainPath (path : String) : Prop := ∀ name ∈ names path, name = "" ∨ IsEntryName name

instance (path : String) : Decidable (IsPlainPath path) :=
  inferInstanceAs (Decidable (∀ _ ∈ _, _))

/-- No byte of such a path is zero. -/
theorem IsPlainPath.not_mem_zero {path : String} (plain : IsPlainPath path) :
    '\x00' ∉ path.toList := by
  intro hzero
  have hslash : '\x00' ≠ '/' := by decide
  obtain ⟨piece, hpiece, hmem⟩ := Text.exists_mem_splitOn hzero hslash
  rcases plain (String.ofList piece) (List.mem_map_of_mem hpiece) with hempty | hname
  · obtain rfl : piece = [] := by simpa using hempty
    cases hmem
  · refine (nameError?_eq_none_iff.1 hname.allowed).1 ?_
    rwa [String.toList_ofList]

/-- The names of a continued path are those of both parts, up to one that is empty. -/
theorem exists_names_join (h : directory.startsWith "/" = false) :
    ∃ front, names (join scratch directory) = front ++ names directory ∧
      front.filter (!·.isEmpty) = placeOf scratch ∧ ∀ name ∈ front, name ∈ names scratch := by
  rw [join, h, Bool.false_or]
  by_cases hempty : scratch.isEmpty = true
  · obtain rfl := String.isEmpty_iff.1 hempty
    exact ⟨[], by simp, by decide, fun name hname => absurd hname List.not_mem_nil⟩
  · rw [if_neg hempty]
    by_cases hslash : scratch.endsWith "/" = true
    · rw [if_pos hslash]
      rw [String.endsWith_eq_endsWith_toSlice, String.Slice.endsWith_string_iff,
        String.copy_toSlice] at hslash
      obtain ⟨cs, hcs⟩ := hslash
      obtain rfl : scratch = String.ofList cs ++ "/" := String.toList_inj.1 (by simp [← hcs])
      have hnone : names "" = [""] := by decide
      have hnames : names (String.ofList cs ++ "/") = names (String.ofList cs) ++ [""] := by
        rw [← hnone, ← names_append_slash, String.append_empty]
      refine ⟨names (String.ofList cs), names_append_slash _ _, ?_, fun name hname => ?_⟩
      · rw [placeOf, hnames, List.filter_append]
        simp
      · rw [hnames]
        exact List.mem_append_left _ hname
    · rw [if_neg hslash, names_append_slash]
      exact ⟨names scratch, rfl, rfl, fun name hname => hname⟩

end Files

namespace FileTree

open Files

variable {tree after files : FileTree} {top below place : Place}

/-! ### A tree below a place -/

/-- Is a place given by what is put below `top`? It is below it itself, or on the way to it. -/
def IsGiven (top place : Place) : Prop := top <+: place ∨ place ≠ [] ∧ place <+: top

theorem mem_directoriesTo_iff {e : Place × Entry} :
    e ∈ directoriesTo top ↔ e.2 = .directory ∧ e.1 ≠ [] ∧ e.1 <+: top := by
  rw [directoriesTo, List.mem_map]
  constructor
  · rintro ⟨n, hn, rfl⟩
    have hlt : n < top.length := List.mem_range.1 hn
    refine ⟨rfl, ?_, List.take_prefix (n + 1) top⟩
    exact List.ne_nil_of_length_pos (by rw [List.length_take]; omega)
  · obtain ⟨place, entry⟩ := e
    rintro ⟨rfl, hne, hprefix⟩
    have hpos : 0 < place.length := List.length_pos_iff.2 hne
    have hle : place.length ≤ top.length := hprefix.length_le
    refine ⟨place.length - 1, List.mem_range.2 (by omega), ?_⟩
    rw [Nat.sub_add_cancel hpos, ← List.prefix_iff_eq_take.1 hprefix]

theorem nodup_directoriesTo (top : Place) : ((directoriesTo top).map (·.1)).Nodup := by
  rw [directoriesTo, List.map_map, List.Nodup, List.pairwise_map]
  refine List.nodup_range.imp_of_mem fun hm hn hne heq => hne ?_
  have hlength := congrArg List.length heq
  simp only [Function.comp_apply, List.length_take] at hlength
  rw [List.mem_range] at hm hn
  omega

/-- What is put below a place, by the places where it comes to stand. -/
def entriesBelow (top : Place) (files : FileTree) : List (Place × Entry) :=
  files.entries.map fun e => (top ++ e.1, e.2)

theorem mem_entriesBelow_iff {entry : Entry} :
    (place, entry) ∈ entriesBelow top files ↔
      ∃ below, place = top ++ below ∧ files.get? below = some entry := by
  rw [entriesBelow, List.mem_map]
  constructor
  · rintro ⟨⟨below, entry⟩, hmem, heq⟩
    obtain ⟨rfl, rfl⟩ := Prod.mk.inj heq
    exact ⟨below, rfl, Table.mem_entries_iff.1 hmem⟩
  · rintro ⟨below, rfl, hget⟩
    exact ⟨(below, entry), Table.mem_entries_iff.2 hget, rfl⟩

theorem nodup_entriesBelow (top : Place) (files : FileTree) :
    ((entriesBelow top files).map (·.1)).Nodup := by
  have hmap : (entriesBelow top files).map (·.1) = files.keys.map (top ++ ·) := by
    simp [entriesBelow, Table.keys]
  rw [hmap, List.Nodup, List.pairwise_map]
  exact files.nodup_keys.imp fun hne heq => hne (List.append_cancel_left heq)

theorem get?_mount : (tree.mount top files).get? place =
    ((Table.ofList (directoriesTo top ++ entriesBelow top files)).get? place).or
      ((tree.get? place).filter fun _ => !top.isPrefixOf place) := by
  rw [mount, Table.get?_overlay, Table.get?_filter]
  rfl

/-- **What is given does not depend on the tree around it.** -/
theorem get?_mount_congr
    (h : ¬ IsGiven top place → after.get? place = tree.get? place) :
    (after.mount top files).get? place = (tree.mount top files).get? place := by
  rw [get?_mount, get?_mount]
  by_cases hbelow : top <+: place
  · have hnone : ∀ o : Option Entry, o.filter (fun _ => !top.isPrefixOf place) = none := by
      intro o
      rw [List.isPrefixOf_iff_prefix.2 hbelow]
      cases o <;> rfl
    rw [hnone, hnone]
  · by_cases hway : place ≠ [] ∧ place <+: top
    · have hkey : ∃ e ∈ directoriesTo top ++ entriesBelow top files, e.1 = place :=
        ⟨(place, .directory), List.mem_append_left _ (mem_directoriesTo_iff.2 ⟨rfl, hway⟩), rfl⟩
      obtain ⟨entry, hentry⟩ := Table.exists_get?_ofList hkey
      rw [hentry, Option.some_or, Option.some_or]
    · rw [h fun hgiven => hgiven.elim hbelow hway]

/-- On the way to the place there are directories. -/
theorem get?_mount_way (hne : place ≠ []) (hway : place <+: top) (htop : files.get? [] = none) :
    (tree.mount top files).get? place = some .directory := by
  have hlater : ∀ e ∈ entriesBelow top files, e.1 ≠ place := by
    rintro ⟨other, entry⟩ hmem rfl
    obtain ⟨below, rfl, hget⟩ := mem_entriesBelow_iff.1 hmem
    have hnil : below = [] := by
      have hle := hway.length_le
      rw [List.length_append] at hle
      exact List.length_eq_zero_iff.1 (by omega)
    rw [hnil, htop] at hget
    cases hget
  have hmem : (place, Entry.directory) ∈ directoriesTo top :=
    mem_directoriesTo_iff.2 ⟨rfl, hne, hway⟩
  have hget : (Table.ofList (directoriesTo top ++ entriesBelow top files)).get? place =
      some .directory := by
    rw [Table.ofList, Table.overlayList, List.foldl_append]
    exact (Table.get?_overlayList_of_forall_ne hlater).trans
      (Table.get?_overlayList_of_mem (nodup_directoriesTo top) hmem)
  rw [get?_mount, hget, Option.some_or]

/-- Elsewhere stands what was there. -/
theorem get?_mount_elsewhere (h : ¬ IsGiven top place) :
    (tree.mount top files).get? place = tree.get? place := by
  have hother : ∀ e ∈ directoriesTo top ++ entriesBelow top files, e.1 ≠ place := by
    rintro e he rfl
    rcases List.mem_append.1 he with hway | hbelow
    · exact h (.inr (mem_directoriesTo_iff.1 hway).2)
    · obtain ⟨below, heq, -⟩ := mem_entriesBelow_iff.1 hbelow
      exact h (.inl (heq ▸ List.prefix_append top below))
  have hnot : top.isPrefixOf place = false := by
    rw [Bool.eq_false_iff, Ne, List.isPrefixOf_iff_prefix]
    exact fun hprefix => h (.inl hprefix)
  have hnone : (Table.ofList (directoriesTo top ++ entriesBelow top files)).get? place = none :=
    Table.get?_overlayList_of_forall_ne hother
  rw [get?_mount, hnone, Option.none_or, hnot]
  cases tree.get? place <;> rfl

/-- Below the place stands what has been put there. -/
theorem get?_mount_below (hne : below ≠ []) :
    (tree.mount top files).get? (top ++ below) = files.get? below := by
  have hearlier : ∀ e ∈ directoriesTo top, e.1 ≠ top ++ below := by
    intro e he heq
    have hle := (mem_directoriesTo_iff.1 he).2.2.length_le
    have hpos := List.length_pos_iff.2 hne
    rw [heq, List.length_append] at hle
    omega
  have houtside : (tree.get? (top ++ below)).filter (fun _ => !top.isPrefixOf (top ++ below)) =
      none := by
    rw [List.isPrefixOf_iff_prefix.2 (List.prefix_append top below)]
    cases tree.get? (top ++ below) <;> rfl
  rw [get?_mount, houtside, Option.or_none, Table.ofList, Table.overlayList, List.foldl_append]
  cases hget : files.get? below with
  | some entry =>
    exact Table.get?_overlayList_of_mem (nodup_entriesBelow top files)
      (mem_entriesBelow_iff.2 ⟨below, rfl, hget⟩)
  | none =>
    have hlater : ∀ e ∈ entriesBelow top files, e.1 ≠ top ++ below := by
      rintro ⟨other, entry⟩ hmem rfl
      obtain ⟨b, heq, hb⟩ := mem_entriesBelow_iff.1 hmem
      rw [← List.append_cancel_left heq, hget] at hb
      cases hb
    exact (Table.get?_overlayList_of_forall_ne hlater).trans
      (Table.get?_overlayList_of_forall_ne hearlier)

/-- A path leads to its place, if there are directories on the way to it. -/
theorem directory?_placeOf {path : String} (plain : IsPlainPath path) (named : path ≠ "")
    (hdirs : ∀ p, p ≠ [] → p <+: placeOf path → tree.get? p = some .directory) :
    tree.directory? path = some (placeOf path) := by
  refine directory?_eq_some_iff.2 ⟨?_, ?_, ?_⟩
  · exact Bool.eq_false_iff.2 fun h => named (String.isEmpty_iff.1 h)
  · exact Bool.eq_false_iff.2 fun h => plain.not_mem_zero (List.contains_iff_mem.1 h)
  · have hfront : ∀ p, p ≠ [] → p <+: (names path).filter (!·.isEmpty) →
        tree.get? ([] ++ p) = some .directory := hdirs
    obtain ⟨hwalk, -⟩ := walks_pass true maxLinks [] plain hfront
    rw [List.append_nil] at hwalk
    rw [hwalk, walk]
    rfl

/-! ### An export whose links stay within it -/

/-- Files such as an export may have, with links that do not lead out of it. -/
structure IsInward (files : FileTree) : Prop where
  top : files.get? [] = none
  names : files.HasEntryNames
  links : files.HasInnerLinks []

theorem IsInward.hasInnerLinks (inward : files.IsInward) (tree : FileTree) (top : Place) :
    (tree.mount top files).HasInnerLinks top := by
  intro below name target hget
  rw [List.append_assoc, get?_mount_below (by simp)] at hget
  exact inward.links below name target hget

variable {scratch directory : String}

/-- **A path that stays below the export leads through it**, and to a directory of it. -/
theorem IsInward.isGiven_of_lookUpsOf (inward : files.IsInward) (tree : FileTree)
    (plain : IsPlainPath scratch) (inside : staysBelow directory = true) :
    (∀ p ∈ (tree.mount (placeOf scratch) files).lookUpsOf [] (join scratch directory),
      IsGiven (placeOf scratch) p) ∧
    ∀ dir, (tree.mount (placeOf scratch) files).directory? (join scratch directory) = some dir →
      placeOf scratch <+: dir := by
  obtain ⟨hrelative, hup⟩ : directory.startsWith "/" = false ∧ ".." ∉ Files.names directory := by
    simpa [staysBelow] using inside
  obtain ⟨front, hnames, hplace, hfront⟩ := exists_names_join hrelative
  have hdirs : ∀ p, p ≠ [] → p <+: front.filter (!·.isEmpty) →
      (tree.mount (placeOf scratch) files).get? ([] ++ p) = some .directory := by
    intro p hne hprefix
    exact get?_mount_way hne (hplace ▸ hprefix) inward.top
  obtain ⟨hwalk, hlook⟩ := walks_pass true maxLinks (Files.names directory)
    (fun name hname => plain name (hfront name hname)) hdirs
  rw [← hnames, hplace, List.nil_append] at hwalk hlook
  have hstays : staysWithin ([] : Place).length (Files.names directory) = true :=
    staysWithin_of_not_mem hup
  obtain ⟨hbelow, hend⟩ :=
    walksBelow true maxLinks (inward.hasInnerLinks tree (placeOf scratch)) hstays
  rw [List.append_nil] at hbelow hend
  constructor
  · intro p hp
    rw [lookUpsOf, ite_self] at hp
    rcases hlook p hp with ⟨p, hne, hprefix, rfl⟩ | hrest
    · exact .inr ⟨hne, hprefix⟩
    · exact .inl (hbelow p hrest)
  · intro dir hdir
    obtain ⟨-, -, hleads⟩ := directory?_eq_some_iff.1 hdir
    exact hend _ (hwalk.symm.trans hleads)

/-- **Reading it looks nowhere else.** -/
theorem IsInward.isGiven_of_consults (inward : files.IsInward) (plain : IsPlainPath scratch)
    (inside : staysBelow directory = true)
    (h : (tree.mount (placeOf scratch) files).Consults (join scratch directory) place) :
    IsGiven (placeOf scratch) place := by
  obtain ⟨hway, hend⟩ := inward.isGiven_of_lookUpsOf tree plain inside
  cases h with
  | way hp => exact hway place hp
  | entry hdir cluster => exact .inl ((hend _ hdir).trans (List.prefix_append _ _))
  | @file dir place cluster entry hdir hentry hp =>
    obtain ⟨below, rfl⟩ := hend dir hdir
    rw [List.append_assoc, get?_mount_below (by simp)] at hentry
    have hname : IsEntryName (ClusterFile.name cluster) :=
      inward.names _ entry hentry _ (by simp)
    rw [lookUpsOf, hname.startsWith_slash, hname.names_eq] at hp
    have hstays : staysWithin below.length [ClusterFile.name cluster] = true := by
      refine staysWithin_of_not_mem ?_
      simpa using hname.ne_up.symm
    exact .inl ((walksBelow true maxLinks (inward.hasInnerLinks tree _) hstays).1 place hp)

end FileTree

namespace Exported

open Files FileTree

variable {exporter : Exporter} {repo directory scratch : String} {e : Exported}
  {tree after : FileTree}

/-- Do two trees agree at the places outside of the export where reading it looks? -/
def AgreesAround (e : Exported) (scratch : String) (tree after : FileTree) : Prop :=
  ∀ files, e.exporter.fetch e.repo = .ok files → ∀ place,
    (tree.mount (placeOf scratch) files).Consults (join scratch e.directory) place →
      ¬ IsGiven (placeOf scratch) place → after.get? place = tree.get? place

theorem read_congr (h : e.AgreesAround scratch tree after) (name : String) :
    (Source.exported name e scratch).read after = (Source.exported name e scratch).read tree := by
  simp only [Source.exported, clusters]
  cases hfetch : e.exporter.fetch e.repo with
  | error failure => rfl
  | ok files =>
    have hread : (after.mount (placeOf scratch) files).readClusters (join scratch e.directory) =
        (tree.mount (placeOf scratch) files).readClusters (join scratch e.directory) :=
      readClusters_congr fun place hconsults =>
        get?_mount_congr (h files hfetch place hconsults)
    simp only [bind, Except.bind, hread]

/-- **What a read of an export can see.** Let the subdirectory be one that is accepted. Over two
trees that agree at the places outside of the export where reading it looks, it comes to the same.
If all links of the export stay within it, there are no such places: reading it comes to the same
over any two trees. -/
theorem exported_footprint (accepted : ofPath exporter repo directory = .ok e)
    (plain : IsPlainPath scratch) (name : String) :
    (∀ tree after, e.AgreesAround scratch tree after →
      (Source.exported name e scratch).read after = (Source.exported name e scratch).read tree) ∧
    ((∀ files, exporter.fetch repo = .ok files → files.IsInward) → ∀ tree after,
      (Source.exported name e scratch).read after =
        (Source.exported name e scratch).read tree) := by
  rw [ofPath] at accepted
  split at accepted
  · next inside =>
    obtain rfl := Except.ok.inj accepted
    constructor
    · intro tree after hagree
      exact read_congr hagree name
    · intro inward tree after
      refine read_congr (fun files hfetch place hconsults houtside => ?_) name
      exact absurd ((inward files hfetch).isGiven_of_consults plain inside hconsults) houtside
  · cases accepted

/-- A repository whose files are fetched as they are. -/
def fixed (files : FileTree) : Exporter where
  kind := "fake"
  fetch _ := .ok files

theorem read_fixed (files tree : FileTree) (name repo directory scratch : String) :
    (Source.exported name ⟨fixed files, repo, directory⟩ scratch).read tree =
      ((tree.mount (placeOf scratch) files).readClusters (join scratch directory)).mapError
        (·.relabelled name) := rfl

/-- An export with a link from the subdirectory up to a file at its top. -/
def linkedFiles : FileTree := .ofList [(["shared.yaml"], .file "CLUSTER: s1\n".toUTF8),
  (["range"], .directory), (["range", "web.yaml"], .link "./../shared.yaml")]

theorem isInward_linkedFiles : linkedFiles.IsInward := by
  refine ⟨by decide +kernel, by decide +kernel, ?_⟩
  intro below name target hget
  have hentries : linkedFiles.entries = [(["range"], .directory),
      (["range", "web.yaml"], .link "./../shared.yaml"),
      (["shared.yaml"], .file "CLUSTER: s1\n".toUTF8)] := by decide +kernel
  have hmem := Table.mem_entries_iff.2 hget
  rw [hentries] at hmem
  obtain ⟨hplace, rfl⟩ : below ++ [name] = ["range"] ++ ["web.yaml"] ∧
      target = "./../shared.yaml" := by simpa using hmem
  obtain ⟨rfl, -⟩ := List.append_inj' hplace rfl
  decide +kernel

/-- The hypotheses of `exported_footprint` are satisfiable, for links that stay within as well. -/
theorem exported_footprint_linkedFiles :
    ∃ e, ofPath (fixed linkedFiles) "svn://repo" "range" = .ok e ∧ IsPlainPath "/srv/staging" ∧
      linkedFiles.IsInward ∧ ∀ tree after : FileTree,
        (Source.exported "fake" e "/srv/staging").read after =
          (Source.exported "fake" e "/srv/staging").read tree := by
  have accepted : ofPath (fixed linkedFiles) "svn://repo" "range" =
      .ok ⟨fixed linkedFiles, "svn://repo", "range"⟩ := if_pos (by decide +kernel)
  have plain : IsPlainPath "/srv/staging" := by decide +kernel
  refine ⟨_, accepted, plain, isInward_linkedFiles, ?_⟩
  refine (exported_footprint accepted plain "fake").2 ?_
  rintro files ⟨⟩
  exact isInward_linkedFiles

/-- An export whose subdirectory is a link that leads out of it. -/
def strayFiles : FileTree := .ofList [(["range"], .link "/tmp/..")]

/-- A file system with one directory, beside that of the export. -/
def tmpTree : FileTree := Table.empty.insert ["tmp"] .directory

/-- The link is followed, to wherever it leads in the tree around the export. -/
theorem walk_strayFiles (tree : FileTree) :
    (tree.mount ["srv", "staging"] strayFiles).walk true maxLinks []
        (names "/srv/staging/range") =
      (tree.mount ["srv", "staging"] strayFiles).walk true (maxLinks - 1) [] ["tmp", ".."] := by
  have htop : strayFiles.get? [] = none := by decide +kernel
  have hlink : strayFiles.get? ["range"] = some (.link "/tmp/..") := by decide +kernel
  have hsrv : (tree.mount ["srv", "staging"] strayFiles).get? ["srv"] = some .directory :=
    get?_mount_way (by simp) (by simp) htop
  have hstaging : (tree.mount ["srv", "staging"] strayFiles).get? ["srv", "staging"] =
      some .directory :=
    get?_mount_way (by simp) (by simp) htop
  have hrange : (tree.mount ["srv", "staging"] strayFiles).get? ["srv", "staging", "range"] =
      some (.link "/tmp/..") := by
    have hbelow : ["srv", "staging", "range"] = ["srv", "staging"] ++ ["range"] := rfl
    rw [hbelow, get?_mount_below (by simp), hlink]
  have hpath : names "/srv/staging/range" = ["", "srv", "staging", "range"] := by decide +kernel
  have htarget : names "/tmp/.." = ["", "tmp", ".."] := by decide +kernel
  have hnames : ∀ n ∈ ["srv", "staging", "range"], nameError? n = none := by decide +kernel
  rw [hpath]
  simp [walk, hsrv, hstaging, hrange, htarget, hnames, maxLinks]

/-- **A link that leads out of the export is followed.** The same export is read as a directory
without clusters where there is another directory beside it, and fails to be read where there is
none. -/
theorem exported_follows_link :
    ∃ e, ofPath (fixed strayFiles) "svn://repo" "range" = .ok e ∧
      (∀ place, place ≠ ["tmp"] → tmpTree.get? place = (Table.empty : FileTree).get? place) ∧
      (Source.exported "fake" e "/srv/staging").read tmpTree = .ok .empty ∧
      (Source.exported "fake" e "/srv/staging").read .empty =
        .error (.source "fake" "Destination is not a directory: /srv/staging/range") := by
  have accepted : ofPath (fixed strayFiles) "svn://repo" "range" =
      .ok ⟨fixed strayFiles, "svn://repo", "range"⟩ := if_pos (by decide +kernel)
  have hplace : placeOf "/srv/staging" = ["srv", "staging"] := by decide +kernel
  have hjoin : join "/srv/staging" "range" = "/srv/staging/range" := by decide +kernel
  have hname : nameError? "tmp" = none := by decide +kernel
  refine ⟨_, accepted, ?_, ?_, ?_⟩
  · intro place hne
    exact (Table.get?_insert ..).trans (if_neg hne.symm)
  · have htmp : (tmpTree.mount ["srv", "staging"] strayFiles).get? ["tmp"] = some .directory := by
      decide +kernel
    have hdirectory : (tmpTree.mount ["srv", "staging"] strayFiles).directory?
        "/srv/staging/range" = some [] := by
      refine directory?_eq_some_iff.2 ⟨by decide +kernel, by decide +kernel, ?_⟩
      rw [walk_strayFiles]
      simp [walk, htmp, hname]
    have hclusters : (tmpTree.mount ["srv", "staging"] strayFiles).clustersIn [] = .empty := by
      decide +kernel
    rw [read_fixed, hplace, hjoin, readClusters, hdirectory, ← hclusters]
    rfl
  · have htmp : (FileTree.mount .empty ["srv", "staging"] strayFiles).get? ["tmp"] = none := by
      decide +kernel
    have hdirectory : (FileTree.mount .empty ["srv", "staging"] strayFiles).directory?
        "/srv/staging/range" = none := by
      refine Option.eq_none_iff_forall_ne_some.2 fun dir hdir => ?_
      obtain ⟨-, -, hwalk⟩ := directory?_eq_some_iff.1 hdir
      rw [walk_strayFiles] at hwalk
      simp [walk, htmp, hname] at hwalk
    rw [read_fixed, hplace, hjoin, readClusters, hdirectory]
    rfl

end Exported

end ClusterSync
