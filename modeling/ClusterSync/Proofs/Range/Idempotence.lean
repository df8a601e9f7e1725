/-
# Collapsing what has been collapsed

A tidy server answers any query with a text that it would itself not collapse any further
(`IsTidy`). Collapsing what such a server makes of a query once more changes nothing, and
neither does collapsing what a collapse in chunks comes to, in chunks again.

In between lies a length at which this can fail. A result that is just as long as the limit fits
into one query and is asked as it stands; but its items weigh one byte more than it has, so that
the passes that led to it may have asked it in several chunks. Then the server has never seen it
as a whole, and may well collapse it further (`collapse_changes_shorthand`). Anything shorter
goes into one chunk, and has been seen (`IsTidy.collapsed_eq_of_fixed`).
-/

import ClusterSync.Proofs.Range.Converging

namespace ClusterSync
namespace Range

open Expression

variable {answer : Query → Except QueryError Reply} {collapsed : String → String}
  {limits : Limits} {limit : Nat} {x : Expression} {r text : String}
  {asked asked' : List Query}

/-- A character that is neither white space nor a comma. -/
def IsBareChar (c : Char) : Prop := Text.isBlank c = false ∧ c ≠ ','

instance (c : Char) : Decidable (IsBareChar c) :=
  inferInstanceAs (Decidable (Text.isBlank c = false ∧ c ≠ ','))

/-- A text with no white space and no comma at either end. -/
structure HasBareEnds (text : String) : Prop where
  head : ∀ c ∈ text.toList.head?, IsBareChar c
  last : ∀ c ∈ text.toList.getLast?, IsBareChar c

theorem hasBareEnds_iff : HasBareEnds text ↔
    text.toList.head?.all (fun c => decide (IsBareChar c)) = true ∧
      text.toList.getLast?.all (fun c => decide (IsBareChar c)) = true := by
  simp only [Option.all_eq_true, decide_eq_true_iff]
  exact ⟨fun h => ⟨h.head, h.last⟩, fun h => ⟨h.1, h.2⟩⟩

instance (text : String) : Decidable (HasBareEnds text) := decidable_of_iff' _ hasBareEnds_iff

/-- A server that collapses any text, and leaves alone what it has collapsed. -/
structure IsTidy (answer : Query → Except QueryError Reply) (collapsed : String → String) :
    Prop where
  answers : ∀ text, ∃ reply, answer ⟨.collapse, text⟩ = .ok reply ∧
    reply.toExpression = collapsed text
  bareEnds : ∀ text, HasBareEnds (collapsed text)
  size_le : ∀ text, Text.size (collapsed text) ≤ Text.size text
  idem : ∀ text, collapsed (collapsed text) = collapsed text

/-- There is nothing to trim at bare ends. -/
theorem HasBareEnds.trim_eq (h : HasBareEnds text) : Text.trim text = text := by
  rw [Text.trim, Text.stripWhile_eq_self (fun c hc => (h.head c hc).1)
    fun c hc => (h.last c hc).1, String.ofList_toList]

theorem HasBareEnds.stripCommas_eq (h : HasBareEnds text) :
    String.ofList (Text.stripWhile (· == ',') text.toList) = text := by
  rw [Text.stripWhile_eq_self (fun c hc => beq_false_of_ne (h.head c hc).2)
    fun c hc => beq_false_of_ne (h.last c hc).2, String.ofList_toList]

/-- An answer that is the only one of a pass is what the pass comes to. -/
theorem joinPass_singleton {reply : Reply} (h : HasBareEnds reply.toExpression) :
    Server.joinPass [reply] = reply.toExpression := by
  have hjoin : Text.join "," [reply.toExpression] = reply.toExpression :=
    String.intercalate_singleton
  rw [Server.joinPass, List.map_singleton, h.trim_eq, hjoin, h.stripCommas_eq]

theorem IsTidy.collapsed_empty (tidy : IsTidy answer collapsed) : collapsed "" = "" := by
  have hle : Text.size (collapsed "") ≤ 0 := tidy.size_le ""
  exact String.utf8ByteSize_eq_zero_iff.1 (Nat.le_zero.1 hle)

/-- **What a pass does not change the server does not either**, if it has seen it in one chunk. -/
theorem IsTidy.collapsed_eq_of_fixed (tidy : IsTidy answer collapsed)
    (hfixed : nextOf answer limit r = .ok r)
    (hone : ((Expression.mk r).chunks limit).length ≤ 1) : collapsed r = r := by
  rw [nextOf] at hfixed
  rcases Nat.le_one_iff_eq_zero_or_eq_one.1 hone with hnone | hsingle
  · rw [List.length_eq_zero_iff.1 hnone] at hfixed
    have hempty : Server.joinPass [] = r := Except.ok.inj hfixed
    rw [← hempty]
    exact tidy.collapsed_empty
  · obtain ⟨chunk, hchunks⟩ := List.length_eq_one_iff.1 hsingle
    obtain ⟨reply, hreply, hanswer⟩ := tidy.answers (Text.join "," chunk)
    have hbare : HasBareEnds reply.toExpression := hanswer ▸ tidy.bareEnds _
    rw [hchunks, List.mapM_cons, List.mapM_nil, hreply] at hfixed
    have hlast : Server.joinPass [reply] = r := Except.ok.inj hfixed
    rw [← hlast, joinPass_singleton hbare, hanswer]
    exact tidy.idem _

/-- What fits into one query the server collapses as it stands. -/
theorem IsTidy.collapse_of_size_le (tidy : IsTidy answer collapsed)
    (hle : x.size ≤ limits.maxChars) :
    ((Server.stateless answer).collapse limits x asked).1 = .ok (collapsed x.text) := by
  obtain ⟨reply, hreply, hanswer⟩ := tidy.answers x.text
  rw [Server.collapse_of_size_le hle, Server.stateless, hreply, ← hanswer]
  rfl

/-- **Collapsing a second time.** It changes nothing, unless the first result is just as long as
the limit and is cut into several chunks all the same; then the server has the last word on
the whole of it. A result that came from one query is never changed. -/
theorem collapse_collapse (tidy : IsTidy answer collapsed) (limits : Limits) (x : Expression)
    (r : String) (asked asked' : List Query)
    (once : ((Server.stateless answer).collapse limits x asked).1 = .ok r) :
    ((Server.stateless answer).collapse limits ⟨r⟩ asked').1 =
      .ok (if Text.size r = limits.maxChars ∧
        1 < ((Expression.mk r).chunks limits.maxChars).length then collapsed r else r) ∧
    (x.size ≤ limits.maxChars → collapsed r = r) := by
  rcases Nat.lt_or_ge limits.maxChars x.size with hlong | hshort
  · -- The passes have come to an end at `r`.
    have hend := Server.ending_collapse answer asked hlong
    rw [once] at hend
    obtain ⟨k, hk, hfirst⟩ : ∃ k < limits.maxPasses,
        IsFirstFixed (nextOf answer limits.maxChars) x.text k r := by
      cases hend with
      | @settled k _ hlt hfirst => exact ⟨k, hlt, hfirst⟩
    have hfixed := hfirst.fixed
    refine ⟨?_, fun hle => absurd hle (Nat.not_le.2 hlong)⟩
    rcases Nat.lt_or_ge limits.maxChars (Text.size r) with hagain | hfits
    · have hsettled : IsFirstFixed (nextOf answer limits.maxChars) r 0 r :=
        ⟨rfl, hfixed, fun j hj => absurd hj (Nat.not_lt_zero j)⟩
      rw [if_neg fun hand => absurd hand.1 (Nat.ne_of_gt hagain)]
      exact hsettled.eq_ok (Nat.zero_lt_of_lt hk) (Server.ending_collapse answer asked' hagain)
    · rw [tidy.collapse_of_size_le hfits]
      split
      · rfl
      · next hcut =>
        have hone : ((Expression.mk r).chunks limits.maxChars).length ≤ 1 := by
          rcases Nat.lt_or_eq_of_le hfits with hlt | heq
          · exact length_chunks_le_one hlt
          · exact Nat.not_lt.1 fun hmany => hcut ⟨heq, hmany⟩
        exact congrArg Except.ok (tidy.collapsed_eq_of_fixed hfixed hone)
  · have hr : collapsed x.text = r := by
      rw [tidy.collapse_of_size_le hshort] at once
      exact Except.ok.inj once
    have hsame : collapsed r = r := by
      rw [← hr]
      exact tidy.idem _
    have hfits : Text.size r ≤ limits.maxChars := by
      rw [← hr]
      exact Nat.le_trans (tidy.size_le _) hshort
    refine ⟨?_, fun _ => hsame⟩
    rw [tidy.collapse_of_size_le hfits, hsame, ite_self]

/-- A server that knows two hosts, and a short way to write them both. -/
def shorthand : String → String
  | "h01" => "h1"
  | "h1" => "h1"
  | "h2" => "h2"
  | "h1,h2" => "h1-2"
  | "h1-2" => "h1-2"
  | _ => ""

/-- The server as it is asked. -/
def askShorthand (q : Query) : Except QueryError Reply := .ok (.body (shorthand q.expr))

theorem shorthand_mem (text : String) : shorthand text ∈ ["h1", "h2", "h1-2", ""] := by
  unfold shorthand
  split <;> decide

theorem isTidy_shorthand : IsTidy askShorthand shorthand where
  answers text := ⟨.body (shorthand text), rfl, rfl⟩
  bareEnds text := by
    have hbare : ∀ s ∈ ["h1", "h2", "h1-2", ""], HasBareEnds s := by decide
    exact hbare _ (shorthand_mem text)
  size_le text := by
    unfold shorthand
    split
    iterate 5 decide
    exact Nat.zero_le _
  idem text := by
    have hidem : ∀ s ∈ ["h1", "h2", "h1-2", ""], shorthand s = s := by decide
    exact hidem _ (shorthand_mem text)

/-- With queries of four bytes the result does not fit into one, and stays as it is. -/
theorem collapse_collapse_shorthand :
    ((Server.stateless askShorthand).collapse ⟨4, 32⟩ ⟨"h01,h2"⟩ []).1 = .ok "h1,h2" ∧
      ((Server.stateless askShorthand).collapse ⟨4, 32⟩ ⟨"h1,h2"⟩ []).1 = .ok "h1,h2" := by
  have once : ((Server.stateless askShorthand).collapse ⟨4, 32⟩ ⟨"h01,h2"⟩ []).1 =
      .ok "h1,h2" := by cbv
  have twice := (collapse_collapse isTidy_shorthand ⟨4, 32⟩ ⟨"h01,h2"⟩ "h1,h2" [] [] once).1
  exact ⟨once, twice⟩

/-- **A collapse need not be idempotent**, even if the server is. With queries of five bytes the
two hosts are asked one by one, and what that comes to is asked in one query. -/
theorem collapse_changes_shorthand :
    IsTidy askShorthand shorthand ∧
      ((Server.stateless askShorthand).collapse ⟨5, 32⟩ ⟨"h01,h2"⟩ []).1 = .ok "h1,h2" ∧
      ((Server.stateless askShorthand).collapse ⟨5, 32⟩ ⟨"h1,h2"⟩ []).1 = .ok "h1-2" ∧
      "h1-2" ≠ "h1,h2" :=
  ⟨isTidy_shorthand, by cbv, by cbv, by decide⟩

end Range
end ClusterSync
