/-
# What a client asks, and when it stops

A server may answer a query by all that it has been asked before, and may answer anything.
What a client asks is bounded all the same.

* Queries are asked in turn, and the first that fails ends it (`Asks`, `exists_asks_askAll`).
* One that is cut is asked as its chunks, and each of those is a join of items that keeps to the
  limit (`isChunkText_of_mem_chunkQueries`).
* A collapse in chunks goes through passes, each of which asks the chunks of what the one before
  came to, until one changes nothing (`Passes`, `exists_passes_converge`). Whatever the answers
  were, no more passes are made than allowed (`Passes.length_le`), and the bound on the queries
  holds in each of them (`Passes.isChunkText`).

`client_sends` puts this together for the three things that a client does.
-/

import ClusterSync.Proofs.Range.Chunks
import ClusterSync.Range.Client

namespace ClusterSync
namespace Range

variable {server : Server} {limits : Limits} {limit : Nat} {mode : Mode} {e : Expression}
  {asked sent queries rest : List Query} {q : Query} {reply : Reply} {replies : List Reply}
  {err : QueryError} {previous current expr : String} {exprs : List String} {left : Nat}
  {result : Except QueryError String}

namespace Server

theorem askAll_cons_error (h : server asked ⟨mode, expr⟩ = .error err) :
    server.askAll mode (expr :: exprs) asked = (.error err, ⟨mode, expr⟩ :: asked) := by
  rw [askAll, ask, h]

theorem askAll_cons_ok (h : server asked ⟨mode, expr⟩ = .ok reply) :
    server.askAll mode (expr :: exprs) asked =
      ((server.askAll mode exprs (⟨mode, expr⟩ :: asked)).1.map (reply :: ·),
        (server.askAll mode exprs (⟨mode, expr⟩ :: asked)).2) := by
  rw [askAll, ask, h]
  dsimp only
  rcases server.askAll mode exprs (⟨mode, expr⟩ :: asked) with ⟨_ | _, _⟩ <;> rfl

theorem expandMembers_eq (server : Server) (limits : Limits) (e : Expression)
    (asked : List Query) :
    server.expandMembers limits e asked =
      ((server.expand limits e asked).1.map Expansion.members,
        (server.expand limits e asked).2) := by
  rw [expandMembers]
  rcases server.expand limits e asked with ⟨_ | _, _⟩ <;> rfl

theorem pass_eq (server : Server) (limits : Limits) (current : String) (asked : List Query) :
    server.pass limits current asked =
      ((server.askChunks limits .collapse ⟨current⟩ asked).1.map joinPass,
        (server.askChunks limits .collapse ⟨current⟩ asked).2) := by
  rw [pass]
  rcases server.askChunks limits .collapse ⟨current⟩ asked with ⟨_ | _, _⟩ <;> rfl

/-- What fits into one query is asked as it stands. -/
theorem expand_of_size_le (h : e.size ≤ limits.maxChars) :
    server.expand limits e asked =
      ((server asked ⟨.list, e.text⟩).map fun reply => .whole reply.toList,
        ⟨.list, e.text⟩ :: asked) := by
  rw [expand, if_pos h, ask]
  cases server asked ⟨.list, e.text⟩ <;> rfl

theorem expand_of_lt_size (h : limits.maxChars < e.size) :
    server.expand limits e asked =
      ((server.askChunks limits .list e asked).1.map fun replies =>
          .chunked (replies.map Reply.toList),
        (server.askChunks limits .list e asked).2) := by
  rw [expand, if_neg (Nat.not_le.2 h)]
  rcases server.askChunks limits .list e asked with ⟨_ | _, _⟩ <;> rfl

theorem collapse_of_size_le (h : e.size ≤ limits.maxChars) :
    server.collapse limits e asked =
      ((server asked ⟨.collapse, e.text⟩).map Reply.toExpression,
        ⟨.collapse, e.text⟩ :: asked) := by
  rw [collapse, if_pos h, ask]
  cases server asked ⟨.collapse, e.text⟩ <;> rfl

theorem collapse_of_lt_size (h : limits.maxChars < e.size) :
    server.collapse limits e asked =
      server.converge limits "" e.text asked limits.maxPasses :=
  if_neg (Nat.not_le.2 h)

end Server

/-- Queries in a row that were all answered, each by what had been asked before it. -/
inductive Answered (server : Server) : List Query → List Query → List Reply → Prop
  | nil {asked : List Query} : Answered server asked [] []
  | cons {asked rest : List Query} {q : Query} {reply : Reply} {replies : List Reply} :
      server asked q = .ok reply → Answered server (q :: asked) rest replies →
      Answered server asked (q :: rest) (reply :: replies)

/-- How asking queries in turn goes: what is sent of them, and what comes of it. -/
inductive Asks (server : Server) (asked queries : List Query) :
    List Query → Except QueryError (List Reply) → Prop
  | all {replies : List Reply} : Answered server asked queries replies →
      Asks server asked queries queries (.ok replies)
  /-- The first query that is not answered is the last one that is sent. -/
  | upTo {before rest : List Query} {q : Query} {replies : List Reply} {err : QueryError} :
      queries = before ++ q :: rest → Answered server asked before replies →
      server (before.reverse ++ asked) q = .error err →
      Asks server asked queries (before ++ [q]) (.error err)

/-- One query that is answered, in front of others. -/
theorem Asks.cons {outcome : Except QueryError (List Reply)} (hq : server asked q = .ok reply)
    (h : Asks server (q :: asked) rest sent outcome) :
    Asks server asked (q :: rest) (q :: sent) (outcome.map (reply :: ·)) := by
  cases h with
  | all hall => exact .all (.cons hq hall)
  | upTo hsplit hbefore herr =>
    refine .upTo (congrArg (q :: ·) hsplit) (.cons hq hbefore) ?_
    rw [List.reverse_cons, List.append_assoc, List.singleton_append]
    exact herr

/-- Nothing but the queries is sent. -/
theorem Asks.subset {outcome : Except QueryError (List Reply)}
    (h : Asks server asked queries sent outcome) : sent ⊆ queries := by
  cases h with
  | all hall => exact List.Subset.refl _
  | @upTo before rest q replies err hsplit hbefore herr =>
    rw [hsplit, List.append_cons before q rest]
    exact List.subset_append_left ..

/-- **Queries are asked in turn, up to the first that fails.** -/
theorem exists_asks_askAll (server : Server) (mode : Mode) (exprs : List String)
    (asked : List Query) :
    ∃ sent, Asks server asked (exprs.map (Query.mk mode)) sent
        (server.askAll mode exprs asked).1 ∧
      (server.askAll mode exprs asked).2 = sent.reverse ++ asked := by
  induction exprs generalizing asked with
  | nil => exact ⟨[], .all .nil, rfl⟩
  | cons expr exprs ih =>
    cases hq : server asked ⟨mode, expr⟩ with
    | error err =>
      rw [Server.askAll_cons_error hq]
      exact ⟨[⟨mode, expr⟩], .upTo (List.nil_append _).symm .nil hq, rfl⟩
    | ok reply =>
      obtain ⟨sent, hsent, hafter⟩ := ih (⟨mode, expr⟩ :: asked)
      rw [Server.askAll_cons_ok hq]
      refine ⟨⟨mode, expr⟩ :: sent, hsent.cons hq, ?_⟩
      rw [hafter, List.reverse_cons, List.append_assoc, List.singleton_append]

/-- The queries for the chunks of an expression. -/
def chunkQueries (limit : Nat) (mode : Mode) (e : Expression) : List Query :=
  (e.chunks limit).map fun chunk => ⟨mode, Text.join "," chunk⟩

theorem exists_asks_askChunks (server : Server) (limits : Limits) (mode : Mode) (e : Expression)
    (asked : List Query) :
    ∃ sent, Asks server asked (chunkQueries limits.maxChars mode e) sent
        (server.askChunks limits mode e asked).1 ∧
      (server.askChunks limits mode e asked).2 = sent.reverse ++ asked := by
  have h := exists_asks_askAll server mode ((e.chunks limits.maxChars).map (Text.join ",")) asked
  rwa [List.map_map] at h

/-- A text that may be sent for a part of an expression: items in byte order, joined with
commas. It keeps to the limit, unless there is no comma in it. -/
def IsChunkText (limit : Nat) (text : String) : Prop :=
  ∃ items, text = Text.join "," items ∧ items ≠ [] ∧ (∀ item ∈ items, Expression.IsItem item) ∧
    items.Pairwise (· ≤ ·) ∧ (Text.size text ≤ limit ∨ ',' ∉ text.toList)

theorem isChunkText_of_mem_chunkQueries (h : q ∈ chunkQueries limit mode e) :
    q.mode = mode ∧ IsChunkText limit q.expr := by
  obtain ⟨chunk, hchunk, rfl⟩ := List.mem_map.1 h
  have hc := Expression.isChunk_of_mem_chunks hchunk
  exact ⟨rfl, chunk, rfl, hc.ne_nil, hc.isItem, hc.sorted, hc.size_le⟩

/-- How a collapse in chunks goes on, with so many passes left, from what the pass before went on
from and what it came to: the queries that each pass sends, and the result. In front of the first
pass stands the empty text, which is no expression that has to be cut. -/
inductive Passes (server : Server) (limits : Limits) :
    Nat → String → String → List Query → List (List Query) → Except QueryError String → Prop
  /-- The pass before has changed nothing. -/
  | settled {left : Nat} {current : String} {asked : List Query} :
      Passes server limits left current current asked [] (.ok current)
  | diverged {previous current : String} {asked : List Query} : previous ≠ current →
      Passes server limits 0 previous current asked []
        (.error (.collapseDiverged limits.maxPasses (Text.size current)))
  | broken {left : Nat} {previous current : String} {asked sent : List Query}
      {err : QueryError} : previous ≠ current →
      Asks server asked (chunkQueries limits.maxChars .collapse ⟨current⟩) sent (.error err) →
      Passes server limits (left + 1) previous current asked [sent] (.error err)
  | next {left : Nat} {previous current : String} {asked sent : List Query}
      {replies : List Reply} {passes : List (List Query)} {result : Except QueryError String} :
      previous ≠ current →
      Asks server asked (chunkQueries limits.maxChars .collapse ⟨current⟩) sent (.ok replies) →
      Passes server limits left current (Server.joinPass replies) (sent.reverse ++ asked) passes
        result →
      Passes server limits (left + 1) previous current asked (sent :: passes) result

/-- **A collapse in chunks goes through passes**, and what has been asked is what they have
sent. -/
theorem exists_passes_converge (server : Server) (limits : Limits) (previous current : String)
    (asked : List Query) (left : Nat) :
    ∃ passes,
      Passes server limits left previous current asked passes
        (server.converge limits previous current asked left).1 ∧
      (server.converge limits previous current asked left).2 = passes.flatten.reverse ++ asked := by
  induction left generalizing previous current asked with
  | zero =>
    rw [Server.converge]
    split
    · next hsame =>
      subst hsame
      exact ⟨[], .settled, rfl⟩
    · next hne => exact ⟨[], .diverged hne, rfl⟩
  | succ left ih =>
    rw [Server.converge]
    split
    · next hsame =>
      subst hsame
      exact ⟨[], .settled, rfl⟩
    · next hne =>
      obtain ⟨sent, hsent, hafter⟩ := exists_asks_askChunks server limits .collapse ⟨current⟩ asked
      rw [Server.pass_eq]
      rcases hpass : server.askChunks limits .collapse ⟨current⟩ asked with ⟨err | replies, after⟩
      · rw [hpass] at hsent hafter
        refine ⟨[sent], .broken hne hsent, ?_⟩
        rw [List.flatten_singleton]
        exact hafter
      · rw [hpass] at hsent hafter
        obtain rfl : after = sent.reverse ++ asked := hafter
        obtain ⟨passes, hpasses, hall⟩ :=
          ih current (Server.joinPass replies) (sent.reverse ++ asked)
        refine ⟨sent :: passes, .next hne hsent hpasses, ?_⟩
        rw [List.flatten_cons, List.reverse_append, List.append_assoc]
        exact hall

/-- **No more passes are made than allowed.** -/
theorem Passes.length_le {passes : List (List Query)}
    (h : Passes server limits left previous current asked passes result) :
    passes.length ≤ left := by
  induction h with
  | settled => exact Nat.zero_le _
  | diverged => exact Nat.le_refl 0
  | broken => exact Nat.succ_le_succ (Nat.zero_le _)
  | next _ _ _ ih => exact Nat.succ_le_succ ih

/-- **Whatever a server answers, no pass sends anything but chunks.** -/
theorem Passes.isChunkText {passes : List (List Query)}
    (h : Passes server limits left previous current asked passes result) :
    ∀ sent ∈ passes, ∀ q ∈ sent, q.mode = .collapse ∧ IsChunkText limits.maxChars q.expr := by
  induction h with
  | settled => exact fun _ h => absurd h List.not_mem_nil
  | diverged => exact fun _ h => absurd h List.not_mem_nil
  | broken _ hasks =>
    intro sent hsent q hq
    rw [List.mem_singleton.1 hsent] at hq
    exact isChunkText_of_mem_chunkQueries (hasks.subset hq)
  | next _ hasks _ ih =>
    intro sent hsent q hq
    rcases List.mem_cons.1 hsent with rfl | hsent
    · exact isChunkText_of_mem_chunkQueries (hasks.subset hq)
    · exact ih sent hsent q hq

/-- **What a client asks.** What fits into one query is asked as it stands, and nothing else is.
Of a longer expression the chunks are asked in turn, up to the first that fails, whose error is
the result; a collapse does so in passes, no more of them than allowed. All that is sent is a
join of items and keeps to the limit, unless it is a single item. -/
theorem client_sends (server : Server) (limits : Limits) (e : Expression) (asked : List Query) :
    (e.size ≤ limits.maxChars →
      (server.expand limits e asked).2 = ⟨.list, e.text⟩ :: asked ∧
      (server.expandMembers limits e asked).2 = ⟨.list, e.text⟩ :: asked ∧
      (server.collapse limits e asked).2 = ⟨.collapse, e.text⟩ :: asked) ∧
    (limits.maxChars < e.size →
      (∃ sent outcome,
        Asks server asked (chunkQueries limits.maxChars .list e) sent outcome ∧
        (∀ q ∈ sent, q.mode = .list ∧ IsChunkText limits.maxChars q.expr) ∧
        server.expand limits e asked =
          (outcome.map fun replies => .chunked (replies.map Reply.toList),
            sent.reverse ++ asked) ∧
        server.expandMembers limits e asked =
          (outcome.map fun replies => Text.sortUnique (replies.map Reply.toList).flatten,
            sent.reverse ++ asked)) ∧
      ∃ passes, passes.length ≤ limits.maxPasses ∧
        Passes server limits limits.maxPasses "" e.text asked passes
          (server.collapse limits e asked).1 ∧
        (∀ sent ∈ passes, ∀ q ∈ sent,
          q.mode = .collapse ∧ IsChunkText limits.maxChars q.expr) ∧
        (server.collapse limits e asked).2 = passes.flatten.reverse ++ asked) := by
  refine ⟨fun hsize => ⟨?_, ?_, ?_⟩, fun hsize => ⟨?_, ?_⟩⟩
  · rw [Server.expand_of_size_le hsize]
  · rw [Server.expandMembers_eq, Server.expand_of_size_le hsize]
  · rw [Server.collapse_of_size_le hsize]
  · obtain ⟨sent, hasks, hafter⟩ := exists_asks_askChunks server limits .list e asked
    refine ⟨sent, _, hasks, fun q hq => isChunkText_of_mem_chunkQueries (hasks.subset hq), ?_, ?_⟩
    · rw [Server.expand_of_lt_size hsize, hafter]
    · rw [Server.expandMembers_eq, Server.expand_of_lt_size hsize, hafter]
      cases (server.askChunks limits .list e asked).1 <;> rfl
  · rw [Server.collapse_of_lt_size hsize]
    obtain ⟨passes, hpasses, hafter⟩ :=
      exists_passes_converge server limits "" e.text asked limits.maxPasses
    exact ⟨passes, hpasses.length_le, hpasses, hpasses.isChunkText, hafter⟩

end Range
end ClusterSync
