/-
# The members of an expression, however it is cut

Some servers answer a query item by item: an item has members or names nothing, a query fails
if any of its items names nothing, and its members are those of its items together
(`IsAdditive`). Such a server need not answer in any order, nor the same query twice alike.

Asking it in chunks is asking it the same (`expandMembers_additive`): a chunk has the items that
have been packed into it, and all the chunks together have the items of the expression. What is
said of one query (`Finds`) is then true of the chunks, of an expansion and of the members that
a client gets. So neither the limit nor the order of the items nor their repetition makes a
difference.
-/

import ClusterSync.Proofs.Range.Asking

namespace ClusterSync
namespace Range

open Expression

variable {server : Server} {members : String → Option (List String)} {limits : Limits}
  {e : Expression} {items xs ys : List String} {asked : List Query} {replies : List Reply}
  {name : String}

/-- Do all items have members? -/
def AllNamed (members : String → Option (List String)) (items : List String) : Prop :=
  ∀ item ∈ items, ∃ names, members item = some names

/-- Is this a member of one of the items? -/
def HasMember (members : String → Option (List String)) (items : List String) (name : String) :
    Prop :=
  ∃ item ∈ items, ∃ names, members item = some names ∧ name ∈ names

/-- A server that answers each query by its items. -/
structure IsAdditive (server : Server) (members : String → Option (List String)) : Prop where
  answers_iff : ∀ asked text, (∃ reply, server asked ⟨.list, text⟩ = .ok reply) ↔
    AllNamed members (Expression.mk text).items
  mem_reply : ∀ asked text reply, server asked ⟨.list, text⟩ = .ok reply →
    ∀ name, name ∈ reply.toList ↔ HasMember members (Expression.mk text).items name

theorem allNamed_append : AllNamed members (xs ++ ys) ↔ AllNamed members xs ∧ AllNamed members ys :=
  List.forall_mem_append

theorem hasMember_append :
    HasMember members (xs ++ ys) name ↔ HasMember members xs name ∨ HasMember members ys name := by
  simp only [HasMember, List.mem_append, or_and_right, exists_or]

/-- It does not matter in which order the items stand, nor how often. -/
theorem allNamed_congr (h : ∀ item, item ∈ xs ↔ item ∈ ys) :
    AllNamed members xs ↔ AllNamed members ys :=
  forall_congr' fun item => by rw [h item]

theorem hasMember_congr (h : ∀ item, item ∈ xs ↔ item ∈ ys) :
    HasMember members xs name ↔ HasMember members ys name :=
  exists_congr fun item => by rw [h item]

/-- **Chunks that were all answered** have members, and their answers list just these. -/
theorem IsAdditive.of_answered (h : IsAdditive server members) {chunks : List (List String)}
    (hitems : ∀ chunk ∈ chunks, (ofItems chunk).items = chunk)
    (hanswered : Answered server asked
      (chunks.map fun chunk => ⟨.list, Text.join "," chunk⟩) replies) :
    AllNamed members chunks.flatten ∧
      ∀ name, name ∈ (replies.map Reply.toList).flatten ↔
        HasMember members chunks.flatten name := by
  induction chunks generalizing asked replies with
  | nil =>
    cases hanswered
    refine ⟨fun item hitem => absurd hitem List.not_mem_nil, fun name => ?_⟩
    simp [HasMember]
  | cons chunk chunks ih =>
    cases hanswered with
    | cons hreply hrest =>
      have hchunk : (ofItems chunk).items = chunk := hitems chunk (List.mem_cons_self ..)
      have hnamed := (h.answers_iff _ (Text.join "," chunk)).1 ⟨_, hreply⟩
      have hmem := h.mem_reply _ (Text.join "," chunk) _ hreply
      rw [show (Expression.mk (Text.join "," chunk)).items = chunk from hchunk] at hnamed hmem
      obtain ⟨hnamedRest, hmemRest⟩ := ih (fun c hc => hitems c (List.mem_cons_of_mem _ hc)) hrest
      rw [List.flatten_cons]
      refine ⟨allNamed_append.2 ⟨hnamed, hnamedRest⟩, fun name => ?_⟩
      rw [List.map_cons, List.flatten_cons, List.mem_append, hasMember_append, hmem, hmemRest]

/-- Does an outcome come where all items have members, and list just these? What it comes to may
be of any kind that has a list of members in it. -/
structure Finds {α : Type} (members : String → Option (List String)) (items : List String)
    (list : α → List String) (outcome : Except QueryError α) : Prop where
  isOk_iff : (∃ found, outcome = .ok found) ↔ AllNamed members items
  mem_iff : ∀ found, outcome = .ok found → ∀ name, name ∈ list found ↔ HasMember members items name

/-- What is found may be put in another form that has the same members. -/
theorem Finds.map {α β : Type} {f : α → β} {list : α → List String} {list' : β → List String}
    {outcome : Except QueryError α} (h : Finds members items list outcome)
    (hsame : ∀ found name, name ∈ list' (f found) ↔ name ∈ list found) :
    Finds members items list' (outcome.map f) := by
  cases outcome with
  | error err =>
    refine ⟨⟨fun ⟨_, heq⟩ => (by cases heq), fun hnamed => ?_⟩, fun _ heq => (by cases heq)⟩
    obtain ⟨found, heq⟩ := h.isOk_iff.2 hnamed
    cases heq
  | ok found =>
    refine ⟨⟨fun _ => h.isOk_iff.1 ⟨found, rfl⟩, fun _ => ⟨f found, rfl⟩⟩, ?_⟩
    rintro _ heq name
    obtain rfl := Except.ok.inj heq
    exact (hsame found name).trans (h.mem_iff found rfl name)

theorem IsAdditive.finds_reply (h : IsAdditive server members) (asked : List Query)
    (text : String) :
    Finds members (Expression.mk text).items Reply.toList (server asked ⟨.list, text⟩) :=
  ⟨h.answers_iff asked text, h.mem_reply asked text⟩

/-- **Asked for its chunks**, a server answers all of them where all items have members. -/
theorem IsAdditive.finds_asks (h : IsAdditive server members) {sent : List Query}
    {outcome : Except QueryError (List Reply)}
    (hasks : Asks server asked (chunkQueries limits.maxChars .list e) sent outcome) :
    Finds members e.items (fun replies => (replies.map Reply.toList).flatten) outcome := by
  have hsame : ∀ item, item ∈ (e.chunks limits.maxChars).flatten ↔ item ∈ e.items := by
    intro item
    rw [flatten_chunks, Text.mem_sort]
  have hitems : ∀ chunk ∈ e.chunks limits.maxChars, (ofItems chunk).items = chunk :=
    fun chunk hchunk => (isChunk_of_mem_chunks hchunk).items_ofItems
  cases hasks with
  | all hanswered =>
    obtain ⟨hnamed, hmem⟩ := h.of_answered hitems hanswered
    refine ⟨⟨fun _ => (allNamed_congr hsame).1 hnamed, fun _ => ⟨_, rfl⟩⟩, ?_⟩
    rintro replies heq name
    obtain rfl := Except.ok.inj heq
    exact (hmem name).trans (hasMember_congr hsame)
  | @upTo before rest q replies err hsplit hbefore herr =>
    have hq : q ∈ chunkQueries limits.maxChars .list e := by
      rw [hsplit]
      exact List.mem_append_right _ (List.mem_cons_self ..)
    obtain ⟨chunk, hchunk, rfl⟩ := List.mem_map.1 hq
    refine ⟨⟨fun ⟨_, heq⟩ => (by cases heq), fun hnamed => ?_⟩, fun _ heq => (by cases heq)⟩
    -- The chunk that fails would have been answered if all its items had members.
    have hall : AllNamed members (ofItems chunk).items := by
      rw [hitems chunk hchunk]
      intro item hitem
      exact hnamed item (exists_mem_chunks_iff.1 ⟨chunk, hchunk, hitem⟩)
    obtain ⟨reply, hreply⟩ := (h.answers_iff (before.reverse ++ asked) _).2 hall
    exact absurd (herr.symm.trans hreply) (by simp)

/-- **An expansion succeeds where all items have members**, and finds just these. -/
theorem IsAdditive.finds_expand (h : IsAdditive server members) (limits : Limits)
    (e : Expression) (asked : List Query) :
    Finds members e.items (fun expansion => expansion.groups.flatten)
      (server.expand limits e asked).1 := by
  rcases Nat.lt_or_ge limits.maxChars e.size with hlt | hle
  · obtain ⟨sent, hasks, -⟩ := exists_asks_askChunks server limits .list e asked
    rw [Server.expand_of_lt_size hlt]
    exact (h.finds_asks hasks).map fun _ _ => Iff.rfl
  · rw [Server.expand_of_size_le hle]
    refine (h.finds_reply asked e.text).map fun reply name => ?_
    rw [Expansion.groups, List.flatten_singleton]

theorem IsAdditive.finds_expandMembers (h : IsAdditive server members) (limits : Limits)
    (e : Expression) (asked : List Query) :
    Finds members e.items id (server.expandMembers limits e asked).1 := by
  rw [Server.expandMembers_eq]
  exact (h.finds_expand limits e asked).map fun _ _ => Text.mem_sortUnique

/-- The members that a client gets stand in strict order, whatever the server answered. -/
theorem Server.pairwise_expandMembers {names : List String}
    (h : (server.expandMembers limits e asked).1 = .ok names) : names.Pairwise (· < ·) := by
  rw [expandMembers_eq] at h
  cases hexpand : (server.expand limits e asked).1 with
  | error err =>
    rw [hexpand] at h
    cases h
  | ok expansion =>
    rw [hexpand] at h
    obtain rfl := Except.ok.inj h
    exact Text.pairwise_sortUnique _

/-- Only the items count: not how they are cut, in which order they stand, how often, or what
has been asked before. -/
theorem IsAdditive.toOption_expandMembers_congr (h : IsAdditive server members)
    {limits limits' : Limits} {e e' : Expression} {asked asked' : List Query}
    (hsame : ∀ item, item ∈ e.items ↔ item ∈ e'.items) :
    (server.expandMembers limits e asked).1.toOption =
      (server.expandMembers limits' e' asked').1.toOption := by
  have hfinds := h.finds_expandMembers limits e asked
  have hfinds' := h.finds_expandMembers limits' e' asked'
  have hboth := hfinds.isOk_iff.trans ((allNamed_congr hsame).trans hfinds'.isOk_iff.symm)
  cases hnames : (server.expandMembers limits e asked).1 with
  | error err =>
    cases hnames' : (server.expandMembers limits' e' asked').1 with
    | error err' => rfl
    | ok names' => exact absurd (hboth.2 ⟨names', hnames'⟩) (by simp [hnames])
  | ok names =>
    obtain ⟨names', hnames'⟩ := hboth.1 ⟨names, hnames⟩
    have heq : names = names' := by
      refine Text.eq_of_pairwise_lt (Server.pairwise_expandMembers hnames)
        (Server.pairwise_expandMembers hnames') fun name => ?_
      exact (hfinds.mem_iff names hnames name).trans
        ((hasMember_congr hsame).trans (hfinds'.mem_iff names' hnames' name).symm)
    rw [hnames', heq]

/-- Expressions that are made of the same parts have the same items. -/
theorem mem_items_ofItems_congr (h : ∀ part, part ∈ xs ↔ part ∈ ys) (item : String) :
    item ∈ (ofItems xs).items ↔ item ∈ (ofItems ys).items := by
  rw [items_ofItems, items_ofItems, List.mem_flatMap, List.mem_flatMap]
  exact exists_congr fun part => by rw [h part]

/-- **Cutting does not change what a query means.** Asked of a server that answers by items, an
expression has members where all its items do, and its members are those of the items, each
once and in byte order. This is the same for any limit, and for any expression with the same
items or made of the same parts. -/
theorem expandMembers_additive (h : IsAdditive server members) (limits : Limits) (e : Expression)
    (asked : List Query) :
    ((∃ names, (server.expandMembers limits e asked).1 = .ok names) ↔
      AllNamed members e.items) ∧
    (∀ names, (server.expandMembers limits e asked).1 = .ok names →
      names.Pairwise (· < ·) ∧ ∀ name, name ∈ names ↔ HasMember members e.items name) ∧
    (∀ limits' e' asked', (∀ item, item ∈ e.items ↔ item ∈ Expression.items e') →
      (server.expandMembers limits e asked).1.toOption =
        (server.expandMembers limits' e' asked').1.toOption) ∧
    ∀ limits' asked' xs ys, (∀ part, part ∈ xs ↔ part ∈ ys) →
      (server.expandMembers limits (ofItems xs) asked).1.toOption =
        (server.expandMembers limits' (ofItems ys) asked').1.toOption := by
  have hfinds := h.finds_expandMembers limits e asked
  refine ⟨hfinds.isOk_iff, fun names hnames => ?_, fun limits' e' asked' hsame => ?_,
    fun limits' asked' xs ys hparts => ?_⟩
  · exact ⟨Server.pairwise_expandMembers hnames, hfinds.mem_iff names hnames⟩
  · exact h.toOption_expandMembers_congr hsame
  · exact h.toOption_expandMembers_congr (mem_items_ofItems_congr hparts)

/-- A server that knows the members of items. -/
def Server.ofMembers (members : String → Option (List String)) : Server := fun _ q =>
  let items := (Expression.mk q.expr).items
  if items.all fun item => (members item).isSome then
    .ok (.members (items.flatMap fun item => (members item).getD []))
  else .error (.server "NO_CLUSTER")

theorem isAdditive_ofMembers (members : String → Option (List String)) :
    IsAdditive (.ofMembers members) members := by
  have hall : ∀ items : List String,
      (items.all fun item => (members item).isSome) = true ↔ AllNamed members items := by
    simp [AllNamed, Option.isSome_iff_exists]
  refine ⟨fun asked text => ?_, fun asked text reply hreply name => ?_⟩
  · rw [← hall, Server.ofMembers]
    split <;> simp_all
  · rw [Server.ofMembers] at hreply
    dsimp only at hreply
    split at hreply
    · next hnamed =>
      obtain rfl := Except.ok.inj hreply
      rw [hall] at hnamed
      rw [Reply.toList, List.mem_flatMap]
      refine exists_congr fun item => and_congr_right fun hitem => ?_
      obtain ⟨names, hnames⟩ := hnamed item hitem
      simp [hnames]
    · cases hreply

/-- Two items with a member in common. -/
def sampleMembers : String → Option (List String)
  | "%a" => some ["h2", "h1"]
  | "%b" => some ["h3", "h2"]
  | _ => none

/-- An expression that is cut has the members that it has in one query, in another order. -/
theorem expandMembers_additive_sampleMembers :
    ∃ names, ((Server.ofMembers sampleMembers).expandMembers ⟨3, 32⟩ ⟨"%b,,%a,%b"⟩ []).1 =
        .ok names ∧ "h3" ∈ names ∧ "h4" ∉ names ∧
      ((Server.ofMembers sampleMembers).expandMembers ⟨3, 32⟩ ⟨"%b,,%a,%b"⟩ []).1.toOption =
        ((Server.ofMembers sampleMembers).expandMembers ⟨100, 32⟩ ⟨"%a,%b"⟩ []).1.toOption := by
  have hitems : (Expression.mk "%b,,%a,%b").items = ["%b", "%a", "%b"] := by decide
  have hitems' : (Expression.mk "%a,%b").items = ["%a", "%b"] := by decide
  obtain ⟨hiff, hmem, hsame, -⟩ := expandMembers_additive (isAdditive_ofMembers sampleMembers)
    ⟨3, 32⟩ ⟨"%b,,%a,%b"⟩ []
  rw [hitems] at hiff hmem
  obtain ⟨names, hnames⟩ := hiff.2 (by simp [AllNamed, sampleMembers])
  refine ⟨names, hnames, ?_, ?_, hsame ⟨100, 32⟩ ⟨"%a,%b"⟩ [] (by simp [hitems, hitems'])⟩
  · rw [(hmem names hnames).2]
    exact ⟨"%b", by simp, _, rfl, by simp⟩
  · rw [(hmem names hnames).2]
    simp [HasMember, sampleMembers]

end Range
end ClusterSync
