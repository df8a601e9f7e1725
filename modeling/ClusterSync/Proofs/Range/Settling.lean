/-
# A collapse that settles

Of the answers a collapse sees nothing but the texts that they are read as. So over two servers
that answer with the same texts it comes to the same (`Server.AnswersBy.collapse_congr`), even if
one of them answers with members at one time and with a text at another, and goes by what it has
been asked before.

Hence what holds of a server that drops repetitions and goes by the query alone holds of any
server that drops them. Each pass that changes items in order leaves fewer of them
(`exists_isFirstFixed_of_isOrdered`), so with two passes more than there are items no collapse
diverges, and all of the items are still there (`collapse_settles`). An expression of commas shows
that the two are needed: one pass takes the commas away, and one finds that nothing is left.
-/

import ClusterSync.Proofs.Range.Thinning

namespace ClusterSync
namespace Range

open Expression

variable {server other : Server} {limits : Limits} {e : Expression} {previous current : String}
  {texts : String → Except QueryError String}

namespace Server

/-! ### Answers as texts -/

/-- Are the texts of a server's answers to collapses the given ones, whatever it has been asked
before? -/
def AnswersBy (server : Server) (texts : String → Except QueryError String) : Prop :=
  ∀ asked text, (server asked ⟨.collapse, text⟩).map Reply.toExpression = texts text

theorem AnswersBy.askAll_eq (h : AnswersBy server texts) (exprs : List String)
    (asked : List Query) :
    (server.askAll .collapse exprs asked).1.map (List.map Reply.toExpression) =
      exprs.mapM texts := by
  induction exprs generalizing asked with
  | nil => rfl
  | cons expr exprs ih =>
    rw [List.mapM_cons, ← h asked expr, ← ih (⟨.collapse, expr⟩ :: asked)]
    cases hq : server asked ⟨.collapse, expr⟩ with
    | error err =>
      rw [askAll_cons_error hq]
      rfl
    | ok reply =>
      rw [askAll_cons_ok hq]
      cases (server.askAll .collapse exprs (⟨.collapse, expr⟩ :: asked)).1 <;> rfl

/-- What a pass makes of the texts of its answers. -/
def joinTexts (texts : List String) : String :=
  String.ofList (Text.stripWhile (· == ',') (Text.join "," (texts.map Text.trim)).toList)

theorem joinPass_eq_joinTexts (replies : List Reply) :
    joinPass replies = joinTexts (replies.map Reply.toExpression) := by
  rw [joinPass, joinTexts, List.map_map]
  rfl

/-- **A pass depends on the texts alone.** -/
theorem AnswersBy.pass_texts (h : AnswersBy server texts) (limits : Limits) (current : String)
    (asked : List Query) :
    (server.pass limits current asked).1 =
      ((((Expression.mk current).chunks limits.maxChars).map (Text.join ",")).mapM texts).map
        joinTexts := by
  rw [pass_eq, askChunks, ← h.askAll_eq _ asked]
  cases (server.askAll .collapse _ asked).1 with
  | error err => rfl
  | ok replies => exact congrArg Except.ok (joinPass_eq_joinTexts replies)

theorem AnswersBy.converge_congr (h : AnswersBy server texts) (h' : AnswersBy other texts)
    (left : Nat) (asked asked' : List Query) :
    (server.converge limits previous current asked left).1 =
      (other.converge limits previous current asked' left).1 := by
  induction left generalizing previous current asked asked' with
  | zero =>
    rw [converge, converge]
    split <;> rfl
  | succ left ih =>
    have hpass : (server.pass limits current asked).1 = (other.pass limits current asked').1 := by
      rw [h.pass_texts, h'.pass_texts]
    rw [converge, converge]
    by_cases hsame : previous = current
    · rw [if_pos hsame, if_pos hsame]
    · rw [if_neg hsame, if_neg hsame]
      generalize server.pass limits current asked = outcome at hpass ⊢
      generalize other.pass limits current asked' = outcome' at hpass ⊢
      obtain ⟨result, asked⟩ := outcome
      obtain ⟨result', asked'⟩ := outcome'
      obtain rfl : result = result' := hpass
      cases result with
      | error err => rfl
      | ok next => exact ih asked asked'

/-- **A collapse sees nothing of the answers but their texts.** -/
theorem AnswersBy.collapse_congr (h : AnswersBy server texts) (h' : AnswersBy other texts)
    (limits : Limits) (e : Expression) (asked asked' : List Query) :
    (server.collapse limits e asked).1 = (other.collapse limits e asked').1 := by
  rcases Nat.lt_or_ge limits.maxChars e.size with hlong | hshort
  · rw [collapse_of_lt_size hlong, collapse_of_lt_size hlong]
    exact h.converge_congr h' limits.maxPasses asked asked'
  · rw [collapse_of_size_le hshort, collapse_of_size_le hshort]
    exact (h asked e.text).trans (h' asked' e.text).symm

end Server

/-! ### Servers that drop repetitions -/

/-- A server that collapses an expression to its items in byte order, each once, whatever it has
been asked before. -/
def Server.DropsRepeats (server : Server) : Prop :=
  ∀ asked text, ∃ reply, server asked ⟨.collapse, text⟩ = .ok reply ∧
    reply.toExpression = Text.join "," (Text.sortUnique (Expression.mk text).items)

theorem Server.DropsRepeats.answersBy (h : server.DropsRepeats) :
    server.AnswersBy fun text =>
      .ok (Text.join "," (Text.sortUnique (Expression.mk text).items)) := by
  intro asked text
  obtain ⟨reply, hreply, htext⟩ := h asked text
  rw [hreply]
  exact congrArg Except.ok htext

/-- **A collapse over a server that drops repetitions settles.** Whatever fits into a query, there
is one text that every collapse of bare items comes to if two more passes are allowed than there
are items, and its items are those of the expression. So none of them diverges. -/
theorem collapse_settles (drops : server.DropsRepeats) (maxChars : Nat) (bare : HasBareItems e) :
    ∃ text, (∀ x, x ∈ (Expression.mk text).items ↔ x ∈ e.items) ∧
      ∀ maxPasses asked, e.items.length + 2 ≤ maxPasses →
        (server.collapse ⟨maxChars, maxPasses⟩ e asked).1 = .ok text := by
  -- As the server answers when it has not been asked before, it goes by the query alone.
  have hdedupes : Dedupes (server []) := drops []
  have hstateless : (Server.stateless (server [])).DropsRepeats := fun _ text => drops [] text
  obtain ⟨kept, hthin, hresult⟩ := exists_thin_of_dedupes hdedupes bare maxChars
  refine ⟨Text.join "," kept, fun x => ?_, fun maxPasses asked enough => ?_⟩
  · have hitems : (Expression.mk (Text.join "," kept)).items = kept := hthin.ordered.items_eq
    rw [hitems]
    exact hthin.mem_iff x
  · rw [drops.answersBy.collapse_congr hstateless.answersBy _ e asked []]
    exact hresult maxPasses [] enough

/-- A server that drops repetitions and answers with members every other time. -/
def alternating : Server := fun asked q =>
  let items := Text.sortUnique (Expression.mk q.expr).items
  if asked.length % 2 = 0 then .ok (.members items) else .ok (.body (Text.join "," items))

theorem dropsRepeats_alternating : alternating.DropsRepeats := by
  intro asked text
  rw [alternating]
  dsimp only
  split <;> exact ⟨_, rfl, rfl⟩

/-- Three items, one of them twice: five passes are enough, and both items are in the result. -/
theorem collapse_settles_alternating :
    HasBareItems ⟨"b,a,b"⟩ ∧ (Expression.mk "b,a,b").items.length + 2 ≤ 5 ∧
      ∃ text, (∀ x, x ∈ (Expression.mk text).items ↔ x = "a" ∨ x = "b") ∧
        (alternating.collapse ⟨2, 5⟩ ⟨"b,a,b"⟩ []).1 = .ok text := by
  have hitems : (Expression.mk "b,a,b").items = ["b", "a", "b"] := by cbv
  have hbare : HasBareItems ⟨"b,a,b"⟩ := by simp [HasBareItems, hitems, Text.isBlank]
  have henough : (Expression.mk "b,a,b").items.length + 2 ≤ 5 := by
    rw [hitems]
    decide
  obtain ⟨text, hmem, hresult⟩ := collapse_settles dropsRepeats_alternating 2 hbare
  refine ⟨hbare, henough, text, fun x => ?_, hresult 5 [] henough⟩
  rw [hmem, hitems]
  simp only [List.mem_cons, List.not_mem_nil, or_false]
  tauto

/-- Commas have no items, and for them two passes are needed. -/
example : (alternating.collapse ⟨1, 2⟩ ⟨",,"⟩ []).1 = .ok "" ∧
    (alternating.collapse ⟨1, 1⟩ ⟨",,"⟩ []).1 = .error (.collapseDiverged 1 0) := by
  constructor <;> cbv

end Range
end ClusterSync
