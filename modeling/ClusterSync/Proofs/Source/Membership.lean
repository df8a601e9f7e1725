/-
# Membership turned around

The names of clusters that the server lists have no comma, so each query for the index is a single
item. There is nothing to cut in it, and it is asked as it stands whatever fits into a query
(`Range.Server.ListsBy.expandMembers_item`).

Looking up a cluster adds it behind the clusters that its members have so far
(`Membership.Index.get?_foldl_note`). The clusters are looked up in byte order, each once, so what
is noted for a member are those of them that have it, in byte order (`Membership.get?_lookUp`). A
cluster whose query fails is passed over.

`Membership.membership_inverts` says this of the source: it depends on nothing but which clusters
the server lists, and which members it tells for each of them.
-/

import ClusterSync.Proofs.Range.Members
import ClusterSync.Proofs.Table
import ClusterSync.Source.Membership

namespace ClusterSync

open Range

/-! ### Queries of one item -/

namespace Range

variable {server : Server} {item : String} {asked : List Query}
  {lists : String → Except QueryError (List String)}

/-- An item is a chunk by itself, whatever the limit. -/
theorem Expression.IsItem.chunks_eq (h : IsItem item) (limit : Nat) :
    (Expression.mk item).chunks limit = [[item]] := by
  have hsort : Text.sort [item] = [item] := Text.sort_eq_self (List.pairwise_singleton _ item)
  rw [chunks, h.items_eq, hsort]
  simp [pack]

/-- Does a server list the given members for each query, whatever it has been asked before? -/
def Server.ListsBy (server : Server) (lists : String → Except QueryError (List String)) : Prop :=
  ∀ asked expr, (server asked ⟨.list, expr⟩).map Reply.toList = lists expr

/-- **A single item is asked as it stands**, whatever the limits. -/
theorem Server.ListsBy.expandMembers_item (h : server.ListsBy lists)
    (hitem : Expression.IsItem item) (limits : Limits) (asked : List Query) :
    server.expandMembers limits ⟨item⟩ asked =
      ((lists item).map Text.sortUnique, ⟨.list, item⟩ :: asked) := by
  rw [expandMembers_eq, ← h asked item]
  rcases Nat.lt_or_ge limits.maxChars (Expression.mk item).size with hlong | hshort
  · have hjoin : Text.join "," [item] = item := String.intercalate_singleton
    rw [expand_of_lt_size hlong, askChunks, hitem.chunks_eq, List.map_singleton, hjoin]
    cases hreply : server asked ⟨.list, item⟩ with
    | error err =>
      rw [askAll_cons_error hreply]
      rfl
    | ok reply =>
      rw [askAll_cons_ok hreply]
      simp [askAll, Except.map, Expansion.members, Expansion.groups]
  · rw [expand_of_size_le hshort]
    cases server asked ⟨.list, item⟩ with
    | error err => rfl
    | ok reply => simp [Except.map, Expansion.members, Expansion.groups]

end Range

namespace Membership

variable {server : Server} {limits : Limits} {cluster member : String} {asked : List Query}
  {lists : String → Except QueryError (List String)} {names : List String} {index : Index}

theorem isItem_allClusters : Expression.IsItem allClusters := ⟨by decide, by decide⟩

theorem isItem_membersOf (h : ',' ∉ cluster.toList) : Expression.IsItem (membersOf cluster) := by
  have hlist : (membersOf cluster).toList = '%' :: cluster.toList := String.toList_append
  constructor
  · intro hempty
    rw [hempty] at hlist
    cases hlist
  · rw [hlist, List.mem_cons, not_or]
    exact ⟨by decide, h⟩

/-! ### What is noted -/

/-- Clusters put behind those that a member has so far; if there are none it stays unknown. -/
def extend (old : Option (List String)) (more : List String) : Option (List String) :=
  if more = [] then old else some (old.getD [] ++ more)

theorem extend_nil (old : Option (List String)) : extend old [] = old := if_pos rfl

theorem extend_extend (old : Option (List String)) (xs ys : List String) :
    extend (extend old xs) ys = extend old (xs ++ ys) := by
  unfold extend
  by_cases hx : xs = []
  · simp [hx]
  · by_cases hy : ys = []
    · simp [hy]
    · simp [hx, hy]

theorem extend_none_eq_some_iff {more cs : List String} :
    extend none more = some cs ↔ more ≠ [] ∧ more = cs := by
  unfold extend
  split <;> simp_all

/-- **Noting a cluster for its members** puts it behind what each of them has. -/
theorem Index.get?_foldl_note {members : List String} (hnd : members.Nodup) :
    (members.foldl (Index.note cluster) index).get? member =
      extend (index.get? member) (if member ∈ members then [cluster] else []) := by
  induction members generalizing index with
  | nil => exact (extend_nil _).symm
  | cons first rest ih =>
    obtain ⟨hfresh, hnd⟩ := List.nodup_cons.1 hnd
    have hnote : (Index.note cluster index first).get? member =
        if first = member then some ((index.get? first).getD [] ++ [cluster])
        else index.get? member := Table.get?_insert ..
    rw [List.foldl_cons, ih hnd, hnote]
    by_cases hfirst : first = member
    · subst hfirst
      simp [hfresh, extend]
    · simp [hfirst, Ne.symm hfirst]

/-- Does the server tell that a member is in a cluster? -/
def IsIn (lists : String → Except QueryError (List String)) (member cluster : String) : Prop :=
  ∃ members, lists (membersOf cluster) = .ok members ∧ member ∈ members

theorem not_isIn_of_error {err : QueryError} (h : lists (membersOf cluster) = .error err) :
    ¬ IsIn lists member cluster := by
  rintro ⟨members, hmembers, -⟩
  rw [h] at hmembers
  cases hmembers

theorem isIn_iff_of_ok {members : List String} (h : lists (membersOf cluster) = .ok members) :
    IsIn lists member cluster ↔ member ∈ members := by
  constructor
  · rintro ⟨others, hothers, hmem⟩
    exact Except.ok.inj (hothers.symm.trans h) ▸ hmem
  · exact fun hmem => ⟨members, h, hmem⟩

instance (lists : String → Except QueryError (List String)) (member cluster : String) :
    Decidable (IsIn lists member cluster) :=
  match h : lists (membersOf cluster) with
  | .error _ => .isFalse (not_isIn_of_error h)
  | .ok _ => decidable_of_iff' _ (isIn_iff_of_ok h)

/-- Those of the clusters that have a member. -/
def clustersOf (lists : String → Except QueryError (List String)) (names : List String)
    (member : String) : List String := names.filter fun cluster => IsIn lists member cluster

theorem mem_clustersOf_iff :
    cluster ∈ clustersOf lists names member ↔ cluster ∈ names ∧ IsIn lists member cluster := by
  simp [clustersOf]

theorem pairwise_clustersOf (lists : String → Except QueryError (List String))
    (names : List String) (member : String) :
    (clustersOf lists (Text.sortUnique names) member).Pairwise (· < ·) :=
  (Text.pairwise_sortUnique names).filter _

/-- **Looking up clusters in turn** asks for each of them once, and puts them behind what their
members have. The induction is on the clusters, for every index that has been made so far. -/
theorem get?_lookUp (h : server.ListsBy lists) (plain : ∀ c ∈ names, ',' ∉ c.toList)
    (limits : Limits) (index : Index) (asked : List Query) :
    (lookUp server limits index names asked).2 =
        (names.map fun c => ⟨.list, membersOf c⟩).reverse ++ asked ∧
      ∀ member, (lookUp server limits index names asked).1.get? member =
        extend (index.get? member) (clustersOf lists names member) := by
  induction names generalizing index asked with
  | nil => exact ⟨rfl, fun member => (extend_nil _).symm⟩
  | cons c rest ih =>
    have hrest := ih fun other hother => plain other (List.mem_cons_of_mem c hother)
    have hitem := isItem_membersOf (plain c (List.mem_cons_self ..))
    rw [lookUp, h.expandMembers_item hitem]
    cases hlist : lists (membersOf c) with
    | error err =>
      obtain ⟨hasked, hget⟩ := hrest index (⟨.list, membersOf c⟩ :: asked)
      constructor
      · simpa [Except.map] using hasked
      · intro member
        have hout : ¬ IsIn lists member c := not_isIn_of_error hlist
        simpa [Except.map, clustersOf, hout] using hget member
    | ok members =>
      obtain ⟨hasked, hget⟩ := hrest ((Text.sortUnique members).foldl (Index.note c) index)
        (⟨.list, membersOf c⟩ :: asked)
      constructor
      · simpa [Except.map] using hasked
      · intro member
        have hnd : (Text.sortUnique members).Nodup :=
          (Text.pairwise_sortUnique members).imp Std.ne_of_lt
        have hfirst : clustersOf lists (c :: rest) member =
            (if member ∈ Text.sortUnique members then [c] else []) ++
              clustersOf lists rest member := by
          have hin : IsIn lists member c ↔ member ∈ Text.sortUnique members :=
            (isIn_iff_of_ok hlist).trans Text.mem_sortUnique.symm
          by_cases hmem : member ∈ Text.sortUnique members <;> simp [clustersOf, hin, hmem]
        rw [hfirst, ← extend_extend, ← Index.get?_foldl_note hnd]
        exact hget member

/-! ### The index -/

/-- Does an index have, for each member, those of the clusters that have it? -/
def Inverts (lists : String → Except QueryError (List String)) (names : List String)
    (index : Index) : Prop :=
  ∀ member, index.get? member = extend none (clustersOf lists (Text.sortUnique names) member)

theorem exists_clusters_eq (h : server.ListsBy lists) (hall : lists allClusters = .ok names)
    (plain : ∀ c ∈ names, ',' ∉ c.toList) (limits : Limits) (cluster : String)
    (asked : List Query) :
    ∃ index : Index,
      clusters server limits cluster asked =
        (.ok (.ofList [(cluster, index.attributes)]),
          ((Text.sortUnique names).map fun c => ⟨.list, membersOf c⟩).reverse ++
            ⟨.list, allClusters⟩ :: asked) ∧
      Inverts lists names index := by
  have hplain : ∀ c ∈ Text.sortUnique names, ',' ∉ c.toList :=
    fun c hc => plain c (Text.mem_sortUnique.1 hc)
  obtain ⟨hasked, hget⟩ := get?_lookUp h hplain limits .empty (⟨.list, allClusters⟩ :: asked)
  refine ⟨(lookUp server limits .empty (Text.sortUnique names) (⟨.list, allClusters⟩ :: asked)).1,
    ?_, hget⟩
  rw [clusters, h.expandMembers_item isItem_allClusters, hall, ← hasked]
  rfl

theorem get?_attributes (index : Index) (member : String) :
    index.attributes.get? member =
      (index.get? member).map fun clusters => .many (clusters.map .text) :=
  Table.get?_mapEntries ..

theorem mem_clustersOf_sortUnique_iff :
    cluster ∈ clustersOf lists (Text.sortUnique names) member ↔
      cluster ∈ names ∧ IsIn lists member cluster := by
  rw [mem_clustersOf_iff, Text.mem_sortUnique]

/-- **The keys** are the members of the clusters. -/
theorem Inverts.mem_keys_iff (h : Inverts lists names index) :
    member ∈ index.attributes.keys ↔ ∃ c ∈ names, IsIn lists member c := by
  rw [Table.mem_keys_iff, get?_attributes, h, Option.isSome_map, Option.isSome_iff_exists]
  simp only [extend_none_eq_some_iff, exists_and_left, exists_eq', and_true]
  constructor
  · intro hne
    obtain ⟨c, hc⟩ := List.exists_mem_of_ne_nil _ hne
    exact ⟨c, mem_clustersOf_sortUnique_iff.1 hc⟩
  · rintro ⟨c, hc⟩
    exact List.ne_nil_of_mem (mem_clustersOf_sortUnique_iff.2 hc)

/-- **The value of a member** are the clusters that have it, in byte order. -/
theorem Inverts.exists_clusters {a : Attribute} (h : Inverts lists names index)
    (ha : index.attributes.get? member = some a) :
    ∃ cs, a = .many (cs.map .text) ∧ cs ≠ [] ∧ cs.Pairwise (· < ·) ∧
      ∀ c, c ∈ cs ↔ c ∈ names ∧ IsIn lists member c := by
  rw [get?_attributes, h] at ha
  obtain ⟨cs, hcs, rfl⟩ := Option.map_eq_some_iff.1 ha
  obtain ⟨hne, rfl⟩ := extend_none_eq_some_iff.1 hcs
  exact ⟨_, rfl, hne, pairwise_clustersOf lists names member,
    fun c => mem_clustersOf_sortUnique_iff⟩

/-- **There is one index** for the same clusters with the same members. -/
theorem Inverts.eq {lists' : String → Except QueryError (List String)} {names' : List String}
    {index' : Index} (h : Inverts lists names index) (h' : Inverts lists' names' index')
    (hnames : ∀ c, c ∈ names' ↔ c ∈ names)
    (hin : ∀ c ∈ names, ∀ member, IsIn lists' member c ↔ IsIn lists member c) :
    index' = index := by
  refine Table.ext_get? fun member => ?_
  rw [h, h']
  congr 1
  refine Text.eq_of_pairwise_lt (pairwise_clustersOf lists' names' member)
    (pairwise_clustersOf lists names member) fun c => ?_
  rw [mem_clustersOf_sortUnique_iff, mem_clustersOf_sortUnique_iff, hnames]
  exact and_congr_right fun hc => hin c hc member

theorem read_membership {set : ClusterSet} {after : List Query} (tree : FileTree)
    (h : clusters server limits cluster [] = (.ok set, after)) :
    (Source.membership server limits cluster).read tree = .ok set := by
  simp only [Source.membership, h]
  rfl

/-- **The index is membership turned around.** Let the server list clusters whose names have no
comma. Then it has a key for each member of a cluster whose query is answered, and its value are
those of the clusters that have the member: there is at least one, and they stand in byte order,
each once. All clusters are asked for once, whatever fits into a query. Two servers that list the
same clusters and tell the same members for each of them have the same index, whatever the limits,
and in whatever order and how often they list them. If the clusters are not listed, this is the
failure. -/
theorem membership_inverts (h : server.ListsBy lists) (limits : Limits) (cluster : String)
    (tree : FileTree) :
    (∀ err, lists allClusters = .error err →
      (Source.membership server limits cluster).read tree = .error (.range err)) ∧
    ∀ names, lists allClusters = .ok names → (∀ c ∈ names, ',' ∉ c.toList) →
      (∃ data : Attributes,
        (Source.membership server limits cluster).read tree = .ok (.ofList [(cluster, data)]) ∧
        (∀ member, member ∈ data.keys ↔ ∃ c ∈ names, IsIn lists member c) ∧
        ∀ member a, data.get? member = some a → ∃ cs, a = .many (cs.map .text) ∧ cs ≠ [] ∧
          cs.Pairwise (· < ·) ∧ ∀ c, c ∈ cs ↔ c ∈ names ∧ IsIn lists member c) ∧
      (clusters server limits cluster []).2 =
        ((Text.sortUnique names).map fun c => ⟨.list, membersOf c⟩).reverse ++
          [⟨.list, allClusters⟩] ∧
      ∀ server' lists' names' limits' tree', Server.ListsBy server' lists' →
        lists' allClusters = .ok names' → (∀ c, c ∈ names' ↔ c ∈ names) →
        (∀ c ∈ names, ∀ member, IsIn lists' member c ↔ IsIn lists member c) →
        (Source.membership server' limits' cluster).read tree' =
          (Source.membership server limits cluster).read tree := by
  constructor
  · intro err hall
    have hclusters : (clusters server limits cluster []).1 = .error err := by
      rw [clusters, h.expandMembers_item isItem_allClusters, hall]
      rfl
    simp only [Source.membership, hclusters]
    rfl
  · intro names hall plain
    obtain ⟨index, hclusters, hinverts⟩ := exists_clusters_eq h hall plain limits cluster []
    refine ⟨⟨index.attributes, read_membership tree hclusters, fun member => ?_,
      fun member a ha => ?_⟩, ?_, ?_⟩
    · exact hinverts.mem_keys_iff
    · exact hinverts.exists_clusters ha
    · rw [hclusters]
    · intro server' lists' names' limits' tree' h' hall' hnames hin
      have plain' : ∀ c ∈ names', ',' ∉ c.toList := fun c hc => plain c ((hnames c).1 hc)
      obtain ⟨index', hclusters', hinverts'⟩ :=
        exists_clusters_eq h' hall' plain' limits' cluster []
      rw [read_membership tree' hclusters', read_membership tree hclusters,
        hinverts.eq hinverts' hnames hin]

/-- A server that knows what to list for each query. -/
def serverOf (lists : String → Except QueryError (List String)) : Server :=
  fun _ q => (lists q.expr).map .members

theorem listsBy_serverOf (lists : String → Except QueryError (List String)) :
    (serverOf lists).ListsBy lists := by
  intro asked expr
  rw [serverOf]
  cases lists expr <;> rfl

/-- Two clusters with a member in common, one of them listed twice, and one that cannot be looked
up. -/
def sampleLists : String → Except QueryError (List String)
  | "allclusters()" => .ok ["web", "db", "broken", "db"]
  | "%web" => .ok ["host2", "host1"]
  | "%db" => .ok ["host3", "host2", "host2"]
  | _ => .error (.server "NO_CLUSTER")

/-- The member in common has both clusters, once each, even if no query fits; the cluster that
cannot be looked up has no member, and what no cluster has is no key. -/
theorem membership_inverts_sampleLists :
    ∃ (data : Attributes) (cs : List String),
      (Source.membership (serverOf sampleLists) ⟨1, 32⟩ "index").read .empty =
        .ok (.ofList [("index", data)]) ∧
      data.get? "host2" = some (.many (cs.map .text)) ∧ cs.Pairwise (· < ·) ∧
      "db" ∈ cs ∧ "web" ∈ cs ∧ "broken" ∉ cs ∧ "host4" ∉ data.keys := by
  obtain ⟨⟨data, hread, hkeys, hvalues⟩, -, -⟩ :=
    (membership_inverts (listsBy_serverOf sampleLists) ⟨1, 32⟩ "index" .empty).2
      ["web", "db", "broken", "db"] rfl (by decide)
  have hkey : "host2" ∈ data.keys := (hkeys "host2").2 (by decide +kernel)
  obtain ⟨a, ha⟩ := Table.mem_keys_iff_exists.1 hkey
  obtain ⟨cs, rfl, -, hsorted, hmem⟩ := hvalues "host2" a ha
  refine ⟨data, cs, hread, ha, hsorted, ?_, ?_, ?_, ?_⟩
  · exact (hmem "db").2 (by decide +kernel)
  · exact (hmem "web").2 (by decide +kernel)
  · exact fun h => absurd ((hmem "broken").1 h) (by decide +kernel)
  · exact fun h => absurd ((hkeys "host4").1 h) (by decide +kernel)

end Membership
end ClusterSync
