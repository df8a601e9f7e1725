/-
# What a listing reads

The page that lists the files comes from elsewhere and may hold anything. Whatever it is, the
files are the targets of its links that are wanted and are plain names, in byte order and each
once (`Listing.mem_files_iff`, `Listing.pairwise_files`).

They are downloaded one after the other, and two things can come of that
(`Listing.download_cases`). Either every file is served, and each stands in the directory with what
has been brought, while nothing else has changed (`IsFilled`). Or one of them is the first that is
not served (`IsFirstUnserved`): then nothing is asked for behind it, and there is no directory to
read.

The directory is fresh, so that what is read from it is what has been brought
(`IsFilled.get?_clustersIn`). No file on the page can lead anywhere else: a plain name that is
short enough and has no zero byte is a name of an entry (`Lists.isEntryName`).
-/

import ClusterSync.Proofs.Source.Containment
import ClusterSync.Source.Listing

namespace ClusterSync

open Files FileTree

namespace Web

variable {web : Web} {url : String} {body other : ByteArray}

/-- Does a request succeed and bring this body, to its end? -/
def Brings (web : Web) (url : String) (body : ByteArray) : Prop :=
  ∃ r, web url = .ok r ∧ 200 ≤ r.status ∧ r.status < 300 ∧ r.complete = true ∧ r.body = body

/-- Does a request succeed and bring its body to the end? -/
def Serves (web : Web) (url : String) : Prop := ∃ body, web.Brings url body

/-- Does a request bring attributes of a cluster: in UTF-8, as the text of a cluster file? -/
def BringsAttributes (web : Web) (url : String) (data : Attributes) : Prop :=
  ∃ body text, web.Brings url body ∧ String.fromUTF8? body = some text ∧ Attributes.Holds text data

theorem Brings.body_eq (h : web.Brings url body) (hother : web.Brings url other) :
    other = body := by
  obtain ⟨r, hr, -, -, -, rfl⟩ := h
  obtain ⟨s, hs, -, -, -, rfl⟩ := hother
  obtain rfl := Except.ok.inj (hr.symm.trans hs)
  rfl

theorem brings_of_eq_ok (h : web url = .ok { body := body }) : web.Brings url body := by
  refine ⟨_, h, Nat.le_refl 200, ?_, rfl, rfl⟩
  show 200 < 300
  decide

end Web

namespace Listing

variable {l : Listing} {web : Web} {tree after : FileTree} {dir : Place} {page body : ByteArray}
  {file scratch : String} {files : List String}

/-! ### The files of a page -/

/-- Is a text the target of a link on the page that is wanted and is a plain name? -/
structure Lists (l : Listing) (page : ByteArray) (file : String) : Prop where
  linked : file.toList ∈ Links.targets (Text.ofBytesLossy page).toList
  wanted : l.wanted.isIn file = true
  ne_empty : file ≠ ""
  ne_here : file ≠ "."
  ne_up : file ≠ ".."
  noSlash : '/' ∉ file.toList
  noBackslash : '\\' ∉ file.toList

/-- **The files of a page are the links that it lists.** -/
theorem mem_files_iff : file ∈ l.files page ↔ l.Lists page file := by
  have hlinked : file ∈ (Links.targets (Text.ofBytesLossy page).toList).map String.ofList ↔
      file.toList ∈ Links.targets (Text.ofBytesLossy page).toList := by
    constructor
    · intro h
      obtain ⟨cs, hcs, rfl⟩ := List.mem_map.1 h
      rwa [String.toList_ofList]
    · intro h
      exact List.mem_map.2 ⟨file.toList, h, String.ofList_toList⟩
  rw [files, Links.ofPage, List.mem_filter, Text.mem_sortUnique, List.mem_filter, hlinked, isPlain]
  simp only [Bool.and_eq_true, Bool.not_eq_true', bne_iff_ne, ne_eq, String.isEmpty_eq_false_iff,
    List.contains_eq_mem, decide_eq_false_iff_not]
  constructor
  · rintro ⟨⟨h₁, h₂⟩, ⟨⟨⟨h₃, h₄⟩, h₅⟩, h₆⟩, h₇⟩
    exact ⟨h₁, h₂, h₃, h₄, h₅, h₆, h₇⟩
  · rintro ⟨h₁, h₂, h₃, h₄, h₅, h₆, h₇⟩
    exact ⟨⟨h₁, h₂⟩, ⟨⟨⟨h₃, h₄⟩, h₅⟩, h₆⟩, h₇⟩

/-- They stand in byte order, each once. -/
theorem pairwise_files (l : Listing) (page : ByteArray) : (l.files page).Pairwise (· < ·) :=
  (Text.pairwise_sortUnique _).filter _

/-- **A file that may be written is the name of an entry.** -/
theorem Lists.isEntryName (h : l.Lists page file) (hsize : file.utf8ByteSize ≤ maxName)
    (hzero : '\x00' ∉ file.toList) : IsEntryName file where
  ne_empty := h.ne_empty
  ne_here := h.ne_here
  ne_up := h.ne_up
  noSlash := h.noSlash
  allowed := nameError?_eq_none_iff.2 ⟨hzero, hsize⟩

/-! ### Requests -/

/-- What is fetched is what a request brings. -/
theorem fetch_eq_ok_iff {url : String} : l.fetch web url = .ok body ↔ web.Brings url body := by
  rw [fetch, Web.Brings]
  cases web url with
  | error reason => simp
  | ok r =>
    by_cases hsuccess : r.isSuccess = true
    · have hstatus : 200 ≤ r.status ∧ r.status < 300 := by simpa [Response.isSuccess] using hsuccess
      cases hcomplete : r.complete <;> simp [hsuccess, hstatus, hcomplete]
    · have hstatus : ¬ (200 ≤ r.status ∧ r.status < 300) := by
        simpa [Response.isSuccess] using hsuccess
      simp only [hsuccess, Bool.not_false, if_true, reduceCtorEq, Except.ok.injEq, exists_eq_left',
        false_iff]
      exact fun h => hstatus ⟨h.1, h.2.1⟩

theorem exists_fetch_eq_error (l : Listing) {url : String} (h : ¬ web.Serves url) :
    ∃ e, l.fetch web url = .error e := by
  cases hfetch : l.fetch web url with
  | error e => exact ⟨e, rfl⟩
  | ok body => exact absurd ⟨body, fetch_eq_ok_iff.1 hfetch⟩ h

/-- Each file has an address of its own. -/
theorem fileUrl_inj {base file other : String} (h : fileUrl base file = fileUrl base other) :
    file = other := by
  unfold fileUrl at h
  split at h <;> simpa using h

/-- None of them is that of the page. -/
theorem fileUrl_ne {base : String} (h : file ≠ "") : fileUrl base file ≠ base := by
  have hpos : 0 < file.utf8ByteSize := Nat.pos_of_ne_zero fun h0 => h (by simpa using h0)
  intro heq
  have hsize := congrArg String.utf8ByteSize heq
  unfold fileUrl at hsize
  split at hsize <;> simp only [String.utf8ByteSize_append] at hsize <;> omega

/-- Is a file, behind some that are served, the first one of a list that is not? -/
structure IsFirstUnserved (l : Listing) (web : Web) (files before : List String) (file : String) :
    Prop where
  cut : before ++ [file] <+: files
  served : ∀ b ∈ before, web.Serves (fileUrl l.url b)
  unserved : ¬ web.Serves (fileUrl l.url file)

/-- The files of a list that are asked for in turn, up to the first that is not served. -/
inductive Attempted (l : Listing) (web : Web) (files : List String) : List String → Prop
  | all (h : ∀ file ∈ files, web.Serves (fileUrl l.url file)) : Attempted l web files files
  | upTo {before : List String} {file : String} (h : l.IsFirstUnserved web files before file) :
    Attempted l web files (before ++ [file])

theorem IsFirstUnserved.mem {before : List String}
    (h : l.IsFirstUnserved web files before file) : file ∈ files :=
  h.cut.subset (by simp)

theorem Attempted.isPrefix {asked : List String} (h : l.Attempted web files asked) :
    asked <+: files := by
  cases h with
  | all => exact List.prefix_refl files
  | upTo h => exact h.cut

/-! ### Downloading into a directory -/

/-- Does a directory have what has been brought of some files, and is nothing else changed? -/
structure IsFilled (l : Listing) (web : Web) (dir : Place) (files : List String)
    (tree after : FileTree) : Prop where
  brought : ∀ file ∈ files, ∃ body, web.Brings (fileUrl l.url file) body ∧
    after.get? (dir ++ [file]) = some (.file body)
  elsewhere : ∀ place, (∀ file ∈ files, place ≠ dir ++ [file]) →
    after.get? place = tree.get? place

/-- One more file is put in front of the others. -/
theorem IsFilled.cons (hbody : web.Brings (fileUrl l.url file) body)
    (h : l.IsFilled web dir files (tree.insert (dir ++ [file]) (.file body)) after) :
    l.IsFilled web dir (file :: files) tree after := by
  constructor
  · intro f hf
    by_cases hrest : f ∈ files
    · exact h.brought f hrest
    · obtain rfl := (List.mem_cons.1 hf).resolve_right hrest
      -- No file behind it takes its place.
      have hstays : ∀ g ∈ files, dir ++ [f] ≠ dir ++ [g] := by
        rintro g hg heq
        obtain rfl : f = g := by simpa using heq
        exact hrest hg
      refine ⟨body, hbody, (h.elsewhere _ hstays).trans ?_⟩
      rw [Table.get?_insert, if_pos rfl]
  · intro place hplace
    obtain ⟨hfile, hfiles⟩ := List.forall_mem_cons.1 hplace
    rw [h.elsewhere place hfiles, Table.get?_insert, if_neg hfile.symm]

/-- A download goes on from the tree that the first files have left. -/
theorem download_append {before : List String} (rest : List String)
    (h : (l.download web dir tree before).1 = .ok after) :
    (l.download web dir tree (before ++ rest)).1 = (l.download web dir after rest).1 := by
  induction before generalizing tree with
  | nil =>
    obtain rfl := Except.ok.inj h
    rfl
  | cons file before ih =>
    rw [download] at h
    rw [List.cons_append, download]
    cases hfetch : l.fetch web (fileUrl l.url file) with
    | error e =>
      simp only [hfetch] at h
      cases h
    | ok body =>
      cases hwrite : tree.write dir file body with
      | error e =>
        simp only [hfetch, hwrite] at h
        cases h
      | ok next =>
        simp only [hfetch, hwrite] at h ⊢
        exact ih h

/-- **What comes of a download.** Every file is served and put into the directory, or one of them
is the first that is not, and nothing is asked for behind it. The induction is on the files, for
every tree that the files before them have left. -/
theorem download_cases (names : ∀ file ∈ files, IsEntryName file)
    (writable : ∀ file ∈ files, tree.IsWritable (dir ++ [file])) :
    (∃ after, l.download web dir tree files = (.ok after, files.map (fileUrl l.url)) ∧
      l.IsFilled web dir files tree after) ∨
    ∃ before file e, l.IsFirstUnserved web files before file ∧
      l.download web dir tree files = (.error e, (before ++ [file]).map (fileUrl l.url)) := by
  induction files generalizing tree with
  | nil => exact .inl ⟨tree, rfl, ⟨by simp, fun _ _ => rfl⟩⟩
  | cons file rest ih =>
    have hname := names file (List.mem_cons_self ..)
    have hwritable := writable file (List.mem_cons_self ..)
    rw [download]
    by_cases hserved : web.Serves (fileUrl l.url file)
    · obtain ⟨body, hbody⟩ := hserved
      have hwrite : tree.write dir file body = .ok (tree.insert (dir ++ [file]) (.file body)) := by
        rw [write_bare hname.toIsBare hwritable, hname.allowed]
      simp only [fetch_eq_ok_iff.2 hbody, hwrite]
      rcases ih (fun f hf => names f (List.mem_cons_of_mem file hf))
        (fun f hf => (writable f (List.mem_cons_of_mem file hf)).insert _ body) with
        ⟨after, hafter, hfilled⟩ | ⟨before, first, e, hfirst, herror⟩
      · left
        exact ⟨after, by rw [hafter]; rfl, .cons hbody hfilled⟩
      · right
        refine ⟨file :: before, first, e, ⟨?_, ?_, hfirst.unserved⟩, by rw [herror]; rfl⟩
        · exact List.cons_prefix_cons.2 ⟨rfl, hfirst.cut⟩
        · exact List.forall_mem_cons.2 ⟨⟨body, hbody⟩, hfirst.served⟩
    · obtain ⟨e, he⟩ := exists_fetch_eq_error l hserved
      simp only [he]
      exact .inr ⟨[], file, e, ⟨by simp, by simp, hserved⟩, rfl⟩

/-! ### The directory that is read -/

/-- **A directory that was empty has the clusters that have been brought.** -/
theorem IsFilled.get?_clustersIn (h : l.IsFilled web dir files tree after)
    (fresh : ∀ name, tree.get? (dir ++ [name]) = none) (names : ∀ file ∈ files, IsEntryName file)
    {cluster : String} {data : Attributes} :
    (after.clustersIn dir).get? cluster = some data ↔
      cluster ≠ "" ∧ '\n' ∉ cluster.toList ∧ ClusterFile.name cluster ∈ files ∧
        web.BringsAttributes (fileUrl l.url (ClusterFile.name cluster)) data := by
  rw [FileTree.get?_clustersIn]
  by_cases hmem : ClusterFile.name cluster ∈ files
  · obtain ⟨body, hbody, hget⟩ := h.brought _ hmem
    rw [attributes?_file (names _ hmem) hget]
    constructor
    · rintro ⟨hne, hline, -, text, htext, hholds⟩
      exact ⟨hne, hline, hmem, body, text, hbody, htext, hholds⟩
    · rintro ⟨hne, hline, -, other, text, hother, htext, hholds⟩
      obtain rfl := hbody.body_eq hother
      exact ⟨hne, hline, ⟨_, hget⟩, text, htext, hholds⟩
  · -- Nothing else is in the directory.
    have hnone : after.get? (dir ++ [ClusterFile.name cluster]) = none := by
      refine (h.elsewhere _ fun file hfile heq => hmem ?_).trans (fresh _)
      have hname : ClusterFile.name cluster = file := by simpa using heq
      exact hname ▸ hfile
    simp [hnone, hmem]

theorem get?_fresh (tree : FileTree) (dir : Place) (name : String) :
    (tree.mount dir .empty).get? (dir ++ [name]) = none := get?_mount_below (by simp)

theorem isWritable_fresh (tree : FileTree) (dir : Place) (name : String) :
    (tree.mount dir .empty).IsWritable (dir ++ [name]) := by
  intro entry hentry
  rw [get?_fresh] at hentry
  cases hentry

/-- The path of a fresh directory leads to it, whatever files are put into it. -/
theorem IsFilled.directory? (h : l.IsFilled web (placeOf scratch) files
      (tree.mount (placeOf scratch) .empty) after)
    (plain : IsPlainPath scratch) (named : scratch ≠ "") :
    after.directory? scratch = some (placeOf scratch) := by
  refine directory?_placeOf plain named fun p hne hway => ?_
  refine (h.elsewhere p ?_).trans (get?_mount_way hne hway rfl)
  rintro file - rfl
  have hle := hway.length_le
  rw [List.length_append, List.length_singleton] at hle
  omega

/-- Reading the page comes to what the download of its files comes to. -/
theorem clusters_eq {result : Except Failure FileTree} {asked : List String}
    (hpage : web.Brings l.url page)
    (h : l.download web (placeOf scratch) (tree.mount (placeOf scratch) .empty) (l.files page) =
      (result, asked)) :
    l.clusters web scratch tree =
      (result.bind fun after => (after.readClusters scratch).mapError (·.relabelled l.name),
        l.url :: asked) := by
  rw [clusters, fetch_eq_ok_iff.2 hpage]
  simp only [h]
  cases result <;> rfl

theorem exists_clusters_eq_error (l : Listing) (tree : FileTree) (scratch : String)
    (h : ¬ web.Serves l.url) : ∃ e, l.clusters web scratch tree = (.error e, [l.url]) := by
  obtain ⟨e, he⟩ := exists_fetch_eq_error l h
  exact ⟨e, by rw [clusters, he]⟩

/-- **What comes of a page.** All its files are served, and the clusters are those that have been
brought, or one of the files is the first that is not served. -/
theorem clusters_cases (plain : IsPlainPath scratch) (named : scratch ≠ "")
    (hpage : web.Brings l.url page) (names : ∀ file ∈ l.files page, IsEntryName file)
    (tree : FileTree) :
    (∃ set, (∀ file ∈ l.files page, web.Serves (fileUrl l.url file)) ∧
      l.clusters web scratch tree = (.ok set, l.url :: (l.files page).map (fileUrl l.url)) ∧
      ∀ cluster data, set.get? cluster = some data ↔
        cluster ≠ "" ∧ '\n' ∉ cluster.toList ∧ ClusterFile.name cluster ∈ l.files page ∧
          web.BringsAttributes (fileUrl l.url (ClusterFile.name cluster)) data) ∨
    ∃ before file e, l.IsFirstUnserved web (l.files page) before file ∧
      l.clusters web scratch tree =
        (.error e, l.url :: (before ++ [file]).map (fileUrl l.url)) := by
  rcases download_cases names fun file _ => isWritable_fresh tree (placeOf scratch) file with
    ⟨after, hafter, hfilled⟩ | ⟨before, file, e, hfirst, herror⟩
  · left
    refine ⟨after.clustersIn (placeOf scratch), ?_, ?_, ?_⟩
    · intro file hfile
      obtain ⟨body, hbody, -⟩ := hfilled.brought file hfile
      exact ⟨body, hbody⟩
    · rw [clusters_eq hpage hafter, Except.bind, readClusters, hfilled.directory? plain named]
      rfl
    · intro cluster data
      exact hfilled.get?_clustersIn (get?_fresh tree (placeOf scratch)) names
  · right
    exact ⟨before, file, e, hfirst, clusters_eq hpage herror⟩

/-! ### Reading a listing -/

variable {set : ClusterSet}

theorem read_eq (l : Listing) (web : Web) (scratch : String) (tree : FileTree) :
    (Source.listing l web scratch).read tree = (l.clusters web scratch tree).1 := rfl

/-- **All or nothing.** -/
theorem exists_read_iff (plain : IsPlainPath scratch) (named : scratch ≠ "")
    (names : ∀ page, web.Brings l.url page → ∀ file ∈ l.files page, IsEntryName file)
    (tree : FileTree) :
    (∃ set, (Source.listing l web scratch).read tree = .ok set) ↔
      ∃ page, web.Brings l.url page ∧
        ∀ file, l.Lists page file → web.Serves (fileUrl l.url file) := by
  simp only [read_eq]
  by_cases hserved : web.Serves l.url
  · obtain ⟨page, hpage⟩ := hserved
    rcases clusters_cases plain named hpage (names page hpage) tree with
      ⟨set, hall, hset, -⟩ | ⟨before, first, e, hfirst, herror⟩
    · rw [hset]
      constructor
      · intro _
        exact ⟨page, hpage, fun file hfile => hall file (mem_files_iff.2 hfile)⟩
      · intro _
        exact ⟨set, rfl⟩
    · rw [herror]
      constructor
      · rintro ⟨set, hset⟩
        cases hset
      · rintro ⟨other, hother, hall⟩
        obtain rfl := hpage.body_eq hother
        exact absurd (hall first (mem_files_iff.1 hfirst.mem)) hfirst.unserved
  · obtain ⟨e, he⟩ := exists_clusters_eq_error l tree scratch hserved
    rw [he]
    constructor
    · rintro ⟨set, hset⟩
      cases hset
    · rintro ⟨page, hpage, -⟩
      exact absurd ⟨page, hpage⟩ hserved

/-- The addresses of the page and of some of its files are all different. -/
theorem nodup_addresses {asked : List String} (h : asked <+: l.files page) :
    (l.url :: asked.map (fileUrl l.url)).Nodup := by
  refine List.nodup_cons.2 ⟨?_, ?_⟩
  · intro hmem
    obtain ⟨file, hfile, heq⟩ := List.mem_map.1 hmem
    exact fileUrl_ne (mem_files_iff.1 (h.subset hfile)).ne_empty heq
  · have hnodup : asked.Nodup := ((l.pairwise_files page).imp Std.ne_of_lt).sublist h.sublist
    exact List.pairwise_map.2 (hnodup.imp fun hne heq => hne (fileUrl_inj heq))

/-- **What is asked for** is the page, and its files up to the first that is not served. -/
theorem exists_attempted (plain : IsPlainPath scratch) (named : scratch ≠ "")
    (hpage : web.Brings l.url page) (names : ∀ file ∈ l.files page, IsEntryName file)
    (tree : FileTree) :
    ∃ asked, l.Attempted web (l.files page) asked ∧
      (l.clusters web scratch tree).2 = l.url :: asked.map (fileUrl l.url) := by
  rcases clusters_cases plain named hpage names tree with
    ⟨set, hall, hset, -⟩ | ⟨before, first, e, hfirst, herror⟩
  · exact ⟨l.files page, .all hall, by rw [hset]⟩
  · exact ⟨before ++ [first], .upTo hfirst, by rw [herror]⟩

/-- **What is read** is what has been brought. -/
theorem get?_read (plain : IsPlainPath scratch) (named : scratch ≠ "")
    (hpage : web.Brings l.url page) (names : ∀ file ∈ l.files page, IsEntryName file)
    (hset : (Source.listing l web scratch).read tree = .ok set) (cluster : String)
    (data : Attributes) :
    set.get? cluster = some data ↔
      cluster ≠ "" ∧ '\n' ∉ cluster.toList ∧ l.Lists page (ClusterFile.name cluster) ∧
        web.BringsAttributes (fileUrl l.url (ClusterFile.name cluster)) data := by
  rw [read_eq] at hset
  rcases clusters_cases plain named hpage names tree with
    ⟨other, -, hother, hget⟩ | ⟨before, first, e, -, herror⟩
  · rw [hother] at hset
    obtain rfl := Except.ok.inj hset
    rw [hget, mem_files_iff]
  · rw [herror] at hset
    cases hset

/-- **What has been written** at any time are the files that have been brought so far. -/
theorem isFilled_of_download {before : List String} (hbefore : before <+: l.files page)
    (names : ∀ file ∈ l.files page, IsEntryName file)
    (hafter : (l.download web dir (tree.mount dir .empty) before).1 = .ok after) :
    l.IsFilled web dir before (tree.mount dir .empty) after := by
  rcases download_cases (fun file hfile => names file (hbefore.subset hfile))
      (fun file _ => isWritable_fresh tree dir file) with
    ⟨other, hother, hfilled⟩ | ⟨first, file, e, -, herror⟩
  · rw [hother] at hafter
    exact Except.ok.inj hafter ▸ hfilled
  · rw [herror] at hafter
    cases hafter

/-- **A listing reads exactly the files of its page, all or nothing.** Let these be short and free
of zero bytes, and let a plain path lead to the fresh directory. What is asked for is an address
that the client is given, and it is served if the client comes back, after all redirects, with a
success and the whole body (`Web.Serves`). The listing can be read if and only if the page and each
of its files is served. What is asked for is the page and then its files, each once and in byte
order, up to the first that is not served, and no other link. What is read are the clusters for
which a file has been brought that holds attributes, with these. Whenever some of the files have
been brought and the download goes on with the others, the directory has what has been brought so
far, and nothing else has been written. -/
theorem reads_listed (plain : IsPlainPath scratch) (named : scratch ≠ "")
    (short : ∀ page, web.Brings l.url page → ∀ file, l.Lists page file →
      file.utf8ByteSize ≤ 255 ∧ '\x00' ∉ file.toList) (tree : FileTree) :
    ((∃ set, (Source.listing l web scratch).read tree = .ok set) ↔
      ∃ page, web.Brings l.url page ∧
        ∀ file, l.Lists page file → web.Serves (fileUrl l.url file)) ∧
    (¬ web.Serves l.url → (l.clusters web scratch tree).2 = [l.url]) ∧
    ∀ page, web.Brings l.url page →
      (l.files page).Pairwise (· < ·) ∧ (∀ file, file ∈ l.files page ↔ l.Lists page file) ∧
      (∃ asked, l.Attempted web (l.files page) asked ∧
        (l.clusters web scratch tree).2 = l.url :: asked.map (fileUrl l.url) ∧
        (l.url :: asked.map (fileUrl l.url)).Nodup) ∧
      (∀ set, (Source.listing l web scratch).read tree = .ok set → ∀ cluster data,
        set.get? cluster = some data ↔
          cluster ≠ "" ∧ '\n' ∉ cluster.toList ∧ l.Lists page (ClusterFile.name cluster) ∧
            web.BringsAttributes (fileUrl l.url (ClusterFile.name cluster)) data) ∧
      ∀ before rest after, l.files page = before ++ rest →
        (l.download web (placeOf scratch) (tree.mount (placeOf scratch) .empty) before).1 =
          .ok after →
        (l.download web (placeOf scratch) (tree.mount (placeOf scratch) .empty) (l.files page)).1 =
          (l.download web (placeOf scratch) after rest).1 ∧
        l.IsFilled web (placeOf scratch) before (tree.mount (placeOf scratch) .empty) after ∧
          ∀ place, ¬ IsGiven (placeOf scratch) place → after.get? place = tree.get? place := by
  have names : ∀ page, web.Brings l.url page → ∀ file ∈ l.files page, IsEntryName file := by
    intro page hpage file hfile
    have hlists := mem_files_iff.1 hfile
    obtain ⟨hsize, hzero⟩ := short page hpage file hlists
    exact hlists.isEntryName hsize hzero
  refine ⟨exists_read_iff plain named names tree, ?_, fun page hpage => ?_⟩
  · intro hpage
    obtain ⟨e, he⟩ := exists_clusters_eq_error l tree scratch hpage
    rw [he]
  · refine ⟨l.pairwise_files page, fun file => mem_files_iff, ?_, ?_, ?_⟩
    · obtain ⟨asked, hattempted, hasked⟩ :=
        exists_attempted plain named hpage (names page hpage) tree
      exact ⟨asked, hattempted, hasked, nodup_addresses hattempted.isPrefix⟩
    · intro set hset
      exact get?_read plain named hpage (names page hpage) hset
    · intro before rest after hfiles hafter
      have hfilled := isFilled_of_download ⟨rest, hfiles.symm⟩ (names page hpage) hafter
      refine ⟨hfiles ▸ download_append rest hafter, hfilled, fun place houtside => ?_⟩
      rw [hfilled.elsewhere place, get?_mount_elsewhere houtside]
      rintro file - rfl
      exact houtside (.inl (List.prefix_append _ _))

/-- A page with links to two cluster files, one of them twice, and to what is no cluster file. -/
def samplePage : ByteArray :=
  "<a href=\"../\">up</a> <A HREF='web.yaml'> <a class=x href=db.yaml> <a href=web.yaml> <a href=x>"
    |>.toUTF8

/-- The page, with a text for each of the two files. -/
def sampleWeb (web db : String) : Web
  | "http://h/" => .ok { body := samplePage }
  | "http://h/web.yaml" => .ok { body := web.toUTF8 }
  | "http://h/db.yaml" => .ok { body := db.toUTF8 }
  | _ => .error "connection refused"

/-- A listing that wants cluster files. -/
def sampleListing : Listing where
  name := "http_index"
  url := "http://h/"
  wanted := (Pattern.ofText? "\\.yaml$").getD .empty

theorem files_samplePage : sampleListing.files samplePage = ["db.yaml", "web.yaml"] := by
  have hlinks : ((Links.targets (Text.ofBytesLossy samplePage).toList).map String.ofList).filter
      sampleListing.wanted.isIn = ["web.yaml", "db.yaml", "web.yaml"] := by decide +kernel
  have hsorted : Text.sortUnique ["web.yaml", "db.yaml", "web.yaml"] = ["db.yaml", "web.yaml"] := by
    refine Text.eq_of_pairwise_lt (Text.pairwise_sortUnique _) (by decide) fun file => ?_
    rw [Text.mem_sortUnique]
    simp only [List.mem_cons, List.not_mem_nil, or_false]
    grind
  rw [files, Links.ofPage, hlinks, hsorted]
  decide

theorem brings_samplePage (web db : String) :
    (sampleWeb web db).Brings sampleListing.url samplePage := Web.brings_of_eq_ok rfl

theorem brings_sampleFiles (web db : String) :
    (sampleWeb web db).Brings (fileUrl sampleListing.url (ClusterFile.name "web")) web.toUTF8 ∧
      (sampleWeb web db).Brings (fileUrl sampleListing.url (ClusterFile.name "db")) db.toUTF8 := by
  have hweb : fileUrl sampleListing.url (ClusterFile.name "web") = "http://h/web.yaml" := by
    decide +kernel
  have hdb : fileUrl sampleListing.url (ClusterFile.name "db") = "http://h/db.yaml" := by
    decide +kernel
  rw [hweb, hdb]
  exact ⟨Web.brings_of_eq_ok rfl, Web.brings_of_eq_ok rfl⟩

theorem serves_sampleFiles (web db : String) :
    ∀ file, sampleListing.Lists samplePage file →
      (sampleWeb web db).Serves (fileUrl sampleListing.url file) := by
  intro file hfile
  obtain ⟨hweb, hdb⟩ := brings_sampleFiles web db
  have hmem : file ∈ ["db.yaml", "web.yaml"] := files_samplePage ▸ mem_files_iff.2 hfile
  rcases List.mem_cons.1 hmem with rfl | hmem
  · exact ⟨_, hdb⟩
  · obtain rfl := List.mem_singleton.1 hmem
    exact ⟨_, hweb⟩

/-- The hypotheses of `reads_listed` are satisfiable. -/
theorem reads_listed_samplePage :
    IsPlainPath "/srv/staging" ∧ "/srv/staging" ≠ "" ∧
    (∀ file, sampleListing.Lists samplePage file →
      file.utf8ByteSize ≤ 255 ∧ '\x00' ∉ file.toList) ∧
    ∃ set, (Source.listing sampleListing (sampleWeb "CLUSTER: s1\n" "") "/srv/staging").read
        .empty = .ok set ∧
      set.get? "web" = some (.ofList [("CLUSTER", .one (.text "s1"))]) ∧
      set.get? "db" = some .empty := by
  have plain : IsPlainPath "/srv/staging" := by decide +kernel
  have named : "/srv/staging" ≠ "" := by decide
  have hpage := brings_samplePage "CLUSTER: s1\n" ""
  have short : ∀ file, sampleListing.Lists samplePage file →
      file.utf8ByteSize ≤ 255 ∧ '\x00' ∉ file.toList := by
    intro file hfile
    have hshort : ∀ file ∈ ["db.yaml", "web.yaml"],
        file.utf8ByteSize ≤ 255 ∧ '\x00' ∉ file.toList := by decide
    exact hshort file (files_samplePage ▸ mem_files_iff.2 hfile)
  obtain ⟨hread, -, hof⟩ := reads_listed plain named
    (fun page hbrings => hpage.body_eq hbrings ▸ short) .empty
  obtain ⟨set, hset⟩ := hread.2 ⟨samplePage, hpage, serves_sampleFiles _ _⟩
  obtain ⟨-, hlists, -, hget, -⟩ := hof samplePage hpage
  have hweb : Attributes.Holds "CLUSTER: s1\n" (.ofList [("CLUSTER", .one (.text "s1"))]) := by
    refine Attributes.ofFile_eq_ok_iff.1 (toOption_eq_some_iff.1 ?_)
    decide +kernel
  refine ⟨plain, named, short, set, hset, ?_, ?_⟩
  · refine (hget set hset "web" _).2 ⟨by decide, by decide, ?_, ?_⟩
    · exact (hlists _).1 (by rw [files_samplePage]; decide)
    · exact ⟨_, _, (brings_sampleFiles _ _).1, fromUTF8?_toUTF8 _, hweb⟩
  · refine (hget set hset "db" _).2 ⟨by decide, by decide, ?_, ?_⟩
    · exact (hlists _).1 (by rw [files_samplePage]; decide)
    · exact ⟨_, _, (brings_sampleFiles _ _).2, fromUTF8?_toUTF8 _, .blank (by decide)⟩

/-- **A tag of a null on nothing is left out.** It is a document of no attributes, and yet its
cluster is not read: where a null may stand, a word for it has to come behind the tag. -/
theorem read_leaves_out_taggedNothing :
    sampleListing.files samplePage = ["db.yaml", ClusterFile.name "web"] ∧
    (sampleWeb "!!null" "").Brings (fileUrl sampleListing.url (ClusterFile.name "web"))
      "!!null".toUTF8 ∧
    String.fromUTF8? "!!null".toUTF8 = some "!!null" ∧
    Attributes.ofDocument "!!null" = .ok .empty ∧
    ∃ set, (Source.listing sampleListing (sampleWeb "!!null" "") "/srv/staging").read .empty =
        .ok set ∧
      set.get? "web" = none := by
  have plain : IsPlainPath "/srv/staging" := by decide +kernel
  have named : "/srv/staging" ≠ "" := by decide
  have hpage := brings_samplePage "!!null" ""
  have names : ∀ file ∈ sampleListing.files samplePage, IsEntryName file := by
    rw [files_samplePage]
    decide +kernel
  have hempty : (Attributes.ofDocument "!!null").toOption = some .empty := by decide +kernel
  have hrefused : (Attributes.ofFile "!!null").toOption = none := by decide +kernel
  obtain ⟨set, hset⟩ := (exists_read_iff plain named
    (fun page hbrings => hpage.body_eq hbrings ▸ names) .empty).2
      ⟨samplePage, hpage, serves_sampleFiles _ _⟩
  refine ⟨files_samplePage, (brings_sampleFiles _ _).1, fromUTF8?_toUTF8 _,
    toOption_eq_some_iff.1 hempty, set, hset, ?_⟩
  refine Option.eq_none_iff_forall_ne_some.2 fun data hdata => ?_
  obtain ⟨-, -, -, body, text, hbody, htext, hholds⟩ :=
    (get?_read plain named hpage names hset "web" data).1 hdata
  obtain rfl := (brings_sampleFiles _ _).1.body_eq hbody
  obtain rfl := Option.some.inj ((fromUTF8?_toUTF8 "!!null").symm.trans htext)
  rw [toOption_eq_some_iff.2 (Attributes.ofFile_eq_ok_iff.2 hholds)] at hrefused
  cases hrefused

end Listing
end ClusterSync
