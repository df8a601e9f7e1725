/-
# What a collapse in chunks comes to

A server whose answers depend on the query alone makes of each expression one next expression,
or fails on it (`nextOf`). A collapse in chunks applies this over and over (`afterPasses`).

There are three ways that it can end (`ending_collapse`), and they exclude each other:

* an expression is reached that stays as it is, and the first such one is the result
  (`IsFirstFixed`);
* the passes are used up while each still changes something;
* a pass fails, with the error of the first of its chunks that fails (`IsFirstFailure`).

The last pass that is allowed may be the one that changes nothing. So with `n` passes allowed a
fixed point is found if fewer than `n` passes lead to it (`collapse_firstFixedPoint`).
-/

import Mathlib
import ClusterSync.Proofs.Range.Asking
import ClusterSync.Proofs.Results

namespace ClusterSync
namespace Range

variable {answer : Query → Except QueryError Reply} {limits : Limits} {limit : Nat}
  {e : Expression} {next : String → Except QueryError String} {start current previous r : String}
  {err : QueryError} {asked : List Query} {k m left : Nat}

/-- A server whose answers depend on the query alone. -/
def Server.stateless (answer : Query → Except QueryError Reply) : Server := fun _ q => answer q

/-- What one pass makes of an expression: its chunks are asked in turn, the answers trimmed and
joined with commas, and commas taken off either end. -/
def nextOf (answer : Query → Except QueryError Reply) (limit : Nat) (current : String) :
    Except QueryError String :=
  (((Expression.mk current).chunks limit).mapM fun chunk =>
    answer ⟨.collapse, Text.join "," chunk⟩).map Server.joinPass

/-- The expression after a number of passes. -/
def afterPasses (next : String → Except QueryError String) (start : String) (k : Nat) :
    Except QueryError String :=
  (fun current => current >>= next)^[k] (.ok start)

theorem afterPasses_succ : afterPasses next start (k + 1) = afterPasses next start k >>= next :=
  Function.iterate_succ_apply' ..

theorem afterPasses_of_next (h : next start = .ok current) :
    afterPasses next start (k + 1) = afterPasses next current k := by
  have hstep : (Except.ok start >>= next) = .ok current := h
  rw [afterPasses, Function.iterate_succ_apply, hstep]
  rfl

/-- An expression that a pass does not change stays as it is. -/
theorem afterPasses_eq_of_fixed (hreached : afterPasses next start k = .ok r)
    (hfixed : next r = .ok r) (hle : k ≤ m) : afterPasses next start m = .ok r := by
  induction hle with
  | refl => exact hreached
  | step _ ih =>
    rw [afterPasses_succ, ih]
    exact hfixed

/-- There is no pass after one that fails. -/
theorem afterPasses_eq_of_failed (hreached : afterPasses next start k = .ok current)
    (hfailed : next current = .error err) (hlt : k < m) :
    afterPasses next start m = .error err := by
  induction hlt with
  | refl =>
    rw [afterPasses_succ, hreached]
    exact hfailed
  | step _ ih =>
    rw [afterPasses_succ, ih]
    rfl

/-- Does each of so many passes change something? -/
def Moves (next : String → Except QueryError String) (start : String) (k : Nat) : Prop :=
  ∀ j < k, afterPasses next start (j + 1) ≠ afterPasses next start j

/-- Is this the first expression that a pass does not change, and do so many passes lead to it? -/
structure IsFirstFixed (next : String → Except QueryError String) (start : String) (k : Nat)
    (r : String) : Prop where
  reached : afterPasses next start k = .ok r
  fixed : next r = .ok r
  moves : Moves next start k

theorem Moves.of_next (h : next start = .ok current) (hne : current ≠ start)
    (hmoves : Moves next current k) : Moves next start (k + 1) := by
  intro j hj
  rw [afterPasses_of_next h]
  cases j with
  | zero => exact fun heq => hne (Except.ok.inj heq)
  | succ j =>
    rw [afterPasses_of_next h]
    exact hmoves j (Nat.lt_of_succ_lt_succ hj)

theorem IsFirstFixed.of_next (h : next start = .ok current) (hne : current ≠ start)
    (hfirst : IsFirstFixed next current k r) : IsFirstFixed next start (k + 1) r :=
  ⟨(afterPasses_of_next h).trans hfirst.reached, hfirst.fixed, hfirst.moves.of_next h hne⟩

/-- How a collapse in chunks ends, if so many passes are left. -/
inductive Ending (next : String → Except QueryError String) (limits : Limits) (start : String)
    (left : Nat) : Except QueryError String → Prop
  | settled {k : Nat} {r : String} : k < left → IsFirstFixed next start k r →
      Ending next limits start left (.ok r)
  | diverged {last : String} : afterPasses next start left = .ok last → Moves next start left →
      Ending next limits start left
        (.error (.collapseDiverged limits.maxPasses (Text.size last)))
  | failed {k : Nat} {s : String} {err : QueryError} : k < left →
      afterPasses next start k = .ok s → next s = .error err →
      Ending next limits start left (.error err)

/-- One pass that changes something, in front of others. -/
theorem Ending.of_next {result : Except QueryError String} (h : next start = .ok current)
    (hne : current ≠ start) (hend : Ending next limits current left result) :
    Ending next limits start (left + 1) result := by
  cases hend with
  | settled hlt hfirst => exact .settled (Nat.succ_lt_succ hlt) (hfirst.of_next h hne)
  | diverged hreached hmoves =>
    exact .diverged ((afterPasses_of_next h).trans hreached) (hmoves.of_next h hne)
  | failed hlt hreached hfailed =>
    exact .failed (Nat.succ_lt_succ hlt) ((afterPasses_of_next h).trans hreached) hfailed

/-- Is this the error of the first chunk that fails? -/
def IsFirstFailure (answer : Query → Except QueryError Reply) (limit : Nat) (current : String)
    (err : QueryError) : Prop :=
  ∃ before chunk after, (Expression.mk current).chunks limit = before ++ chunk :: after ∧
    (∀ c ∈ before, ∃ reply, answer ⟨.collapse, Text.join "," c⟩ = .ok reply) ∧
    answer ⟨.collapse, Text.join "," chunk⟩ = .error err

theorem isFirstFailure_of_nextOf (h : nextOf answer limit current = .error err) :
    IsFirstFailure answer limit current err := by
  rw [nextOf] at h
  cases hmap : ((Expression.mk current).chunks limit).mapM fun chunk =>
      answer ⟨.collapse, Text.join "," chunk⟩ with
  | ok replies =>
    rw [hmap] at h
    cases h
  | error e =>
    rw [hmap] at h
    obtain rfl : e = err := Except.error.inj h
    exact exists_first_of_mapM_eq_error hmap

namespace Server

theorem askAll_stateless (mode : Mode) (exprs : List String) (asked : List Query) :
    ((stateless answer).askAll mode exprs asked).1 =
      exprs.mapM fun expr => answer ⟨mode, expr⟩ := by
  induction exprs generalizing asked with
  | nil => rfl
  | cons expr exprs ih =>
    rw [List.mapM_cons, ← ih (⟨mode, expr⟩ :: asked)]
    cases hq : answer ⟨mode, expr⟩ with
    | error err =>
      rw [askAll_cons_error (show stateless answer asked ⟨mode, expr⟩ = .error err from hq)]
      rfl
    | ok reply =>
      rw [askAll_cons_ok (show stateless answer asked ⟨mode, expr⟩ = .ok reply from hq)]
      cases ((stateless answer).askAll mode exprs (⟨mode, expr⟩ :: asked)).1 <;> rfl

/-- **A pass depends on the expression alone.** -/
theorem pass_stateless (current : String) (asked : List Query) :
    ((stateless answer).pass limits current asked).1 = nextOf answer limits.maxChars current := by
  rw [pass_eq, askChunks, askAll_stateless, List.mapM_map]
  rfl

/-- **A collapse settles, uses its passes up, or fails.** What it goes on from must not be what
the pass before went on from. -/
theorem ending_converge (hne : previous ≠ current) (asked : List Query) (left : Nat) :
    Ending (nextOf answer limits.maxChars) limits current left
      ((stateless answer).converge limits previous current asked left).1 := by
  induction left generalizing previous current asked with
  | zero =>
    rw [converge, if_neg hne]
    exact .diverged rfl fun j hj => absurd hj (Nat.not_lt_zero j)
  | succ left ih =>
    have hpass : ((stateless answer).pass limits current asked).1 =
        nextOf answer limits.maxChars current := pass_stateless current asked
    rw [converge, if_neg hne]
    generalize (stateless answer).pass limits current asked = outcome at hpass ⊢
    obtain ⟨err | t, asked'⟩ := outcome
    · exact .failed (Nat.zero_lt_succ left) rfl hpass.symm
    · by_cases hsame : current = t
      · -- Nothing has changed, which the next round finds out.
        subst hsame
        have hstop : ((stateless answer).converge limits current current asked' left).1 =
            .ok current := by
          cases left <;> rw [converge, if_pos rfl]
        dsimp only
        rw [hstop]
        exact .settled (Nat.zero_lt_succ left)
          ⟨rfl, hpass.symm, fun j hj => absurd hj (Nat.not_lt_zero j)⟩
      · exact (ih hsame asked').of_next hpass.symm (Ne.symm hsame)

theorem ending_collapse (answer : Query → Except QueryError Reply) (asked : List Query)
    (long : limits.maxChars < e.size) :
    Ending (nextOf answer limits.maxChars) limits e.text limits.maxPasses
      ((stateless answer).collapse limits e asked).1 := by
  have hne : "" ≠ e.text := by
    rintro hempty
    rw [Expression.size, ← hempty] at long
    exact absurd long (Nat.not_lt_zero _)
  rw [collapse_of_lt_size long]
  exact ending_converge hne asked limits.maxPasses

end Server

/-- The ways to end exclude each other: what is reached and stays is reached by any number of
passes from then on. -/
theorem IsFirstFixed.eq_ok {result : Except QueryError String} (h : IsFirstFixed next start k r)
    (hlt : k < left) (hend : Ending next limits start left result) : result = .ok r := by
  cases hend with
  | @settled k' r' hlt' hfirst =>
    have hr := afterPasses_eq_of_fixed h.reached h.fixed (Nat.le_max_left k k')
    have hr' := afterPasses_eq_of_fixed hfirst.reached hfirst.fixed (Nat.le_max_right k k')
    exact hr'.symm.trans hr
  | diverged hreached hmoves =>
    have hsucc := afterPasses_eq_of_fixed h.reached h.fixed (Nat.le_succ k)
    exact absurd (hsucc.trans h.reached.symm) (hmoves k hlt)
  | @failed k' s err hlt' hreached hfailed =>
    have hr := afterPasses_eq_of_fixed h.reached h.fixed (Nat.le_max_left k (k' + 1))
    have herr := afterPasses_eq_of_failed hreached hfailed (Nat.le_max_right k (k' + 1))
    exact absurd (hr.symm.trans herr) (by simp)

theorem Moves.eq_diverged {result : Except QueryError String} (h : Moves next start left)
    (hreached : afterPasses next start left = .ok current)
    (hend : Ending next limits start left result) :
    result = .error (.collapseDiverged limits.maxPasses (Text.size current)) := by
  cases hend with
  | @settled k r hlt hfirst =>
    have hsucc := afterPasses_eq_of_fixed hfirst.reached hfirst.fixed (Nat.le_succ k)
    exact absurd (hsucc.trans hfirst.reached.symm) (h k hlt)
  | diverged hlast _ =>
    obtain rfl := Except.ok.inj (hlast.symm.trans hreached)
    rfl
  | failed hlt hfail hfailed =>
    exact absurd (hreached.symm.trans (afterPasses_eq_of_failed hfail hfailed hlt)) (by simp)

/-- If all passes succeed and yet no expression is the result, each of them changed something. -/
theorem Ending.moves {result : Except QueryError String}
    (hend : Ending next limits start left result)
    (hreached : afterPasses next start left = .ok current) (herr : result = .error err) :
    Moves next start left := by
  cases hend with
  | settled _ _ => cases herr
  | diverged _ hmoves => exact hmoves
  | failed hlt hfail hfailed =>
    exact absurd (hreached.symm.trans (afterPasses_eq_of_failed hfail hfailed hlt)) (by simp)

/-- **A collapse in chunks finds the first fixed point, or tells exactly why not.** Let `next` be
one pass and `after` what so many passes come to. The result is an expression if fewer passes
than are allowed lead to the first fixed point, which it then is; it is the error of
divergence, with the length that has been reached, if all the passes that are allowed succeed
and change something; and otherwise it is the error of the first chunk that fails, in the first
pass that does. -/
theorem collapse_firstFixedPoint (answer : Query → Except QueryError Reply) (limits : Limits)
    (e : Expression) (asked : List Query) (long : limits.maxChars < e.size) :
    let next := nextOf answer limits.maxChars
    let after := afterPasses next e.text
    let result := ((Server.stateless answer).collapse limits e asked).1
    (∀ r, result = .ok r ↔ ∃ k < limits.maxPasses, IsFirstFixed next e.text k r) ∧
    ((∃ last, after limits.maxPasses = .ok last ∧
        result = .error (.collapseDiverged limits.maxPasses (Text.size last))) ↔
      (∃ last, after limits.maxPasses = .ok last) ∧
        ∀ j < limits.maxPasses, after (j + 1) ≠ after j) ∧
    ((¬ ∃ k < limits.maxPasses, ∃ r, IsFirstFixed next e.text k r) →
      (¬ ((∃ last, after limits.maxPasses = .ok last) ∧
        ∀ j < limits.maxPasses, after (j + 1) ≠ after j)) →
      ∃ k < limits.maxPasses, ∃ current err, after k = .ok current ∧
        IsFirstFailure answer limits.maxChars current err ∧ result = .error err) := by
  intro next after result
  have hend : Ending next limits e.text limits.maxPasses result :=
    Server.ending_collapse answer asked long
  refine ⟨fun r => ⟨fun hok => ?_, ?_⟩, ⟨?_, ?_⟩, fun hsettled hdiverged => ?_⟩
  · rw [hok] at hend
    cases hend with
    | @settled k _ hlt hfirst => exact ⟨k, hlt, hfirst⟩
  · rintro ⟨k, hlt, hfirst⟩
    exact hfirst.eq_ok hlt hend
  · rintro ⟨last, hlast, herr⟩
    exact ⟨⟨last, hlast⟩, hend.moves hlast herr⟩
  · rintro ⟨⟨last, hlast⟩, hmoves⟩
    exact ⟨last, hlast, Moves.eq_diverged hmoves hlast hend⟩
  · cases hres : result with
    | ok r =>
      rw [hres] at hend
      cases hend with
      | @settled k _ hlt hfirst => exact absurd ⟨k, hlt, r, hfirst⟩ hsettled
    | error err =>
      rw [hres] at hend
      cases hend with
      | diverged hreached hmoves => exact absurd ⟨⟨_, hreached⟩, hmoves⟩ hdiverged
      | @failed k s _ hlt hreached hfailed =>
        exact ⟨k, hlt, s, err, hreached, isFirstFailure_of_nextOf hfailed, rfl⟩

/-- A server that answers with the query. -/
def echo (q : Query) : Except QueryError Reply := .ok (.body q.expr)

/-- Two items in the wrong order: the first pass sorts them, and it takes a second one to see
that they stay. With one pass allowed the collapse gives up. -/
theorem collapse_firstFixedPoint_echo :
    ((Server.stateless echo).collapse ⟨2, 2⟩ ⟨"b,a"⟩ []).1 = .ok "a,b" ∧
      ((Server.stateless echo).collapse ⟨2, 1⟩ ⟨"b,a"⟩ []).1 =
        .error (.collapseDiverged 1 3) := by
  have hfirst : nextOf echo 2 "b,a" = .ok "a,b" := by cbv
  have hsecond : nextOf echo 2 "a,b" = .ok "a,b" := by cbv
  have hreached : afterPasses (nextOf echo 2) "b,a" 1 = .ok "a,b" := afterPasses_of_next hfirst
  have hmoves : Moves (nextOf echo 2) "b,a" 1 := by
    intro j hj
    obtain rfl : j = 0 := by omega
    rw [hreached]
    exact fun heq => absurd (Except.ok.inj heq) (by decide)
  have hlong : 2 < (Expression.mk "b,a").size := by decide
  constructor
  · exact ((collapse_firstFixedPoint echo ⟨2, 2⟩ ⟨"b,a"⟩ [] hlong).1 "a,b").2
      ⟨1, by decide, hreached, hsecond, hmoves⟩
  · obtain ⟨last, hlast, hresult⟩ :=
      (collapse_firstFixedPoint echo ⟨2, 1⟩ ⟨"b,a"⟩ [] hlong).2.1.2 ⟨⟨"a,b", hreached⟩, hmoves⟩
    obtain rfl : last = "a,b" := Except.ok.inj (hlast.symm.trans hreached)
    exact hresult

end Range
end ClusterSync
