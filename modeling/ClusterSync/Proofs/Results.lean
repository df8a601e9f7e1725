/-
# Results that may be errors

A program that goes on only where its parts succeed fails as the first of them that fails. Two parts
in a row are told by `bind_eq_ok_iff` and `bind_eq_error_iff`, and a list that is gone through in
turn by its members: it succeeds if all of them do (`exists_mapM_eq_ok`, `forall₂_of_mapM_eq_ok`),
and else it has the error of the first that does not (`mapM_eq_error_of_first`,
`exists_first_of_mapM_eq_error`).
-/

import Mathlib.Data.List.Forall2

namespace ClusterSync

variable {α β ε : Type} {x : Except ε α} {xs : List α}

theorem toOption_eq_some_iff {a : α} : x.toOption = some a ↔ x = .ok a := by
  cases x <;> simp [Except.toOption]

theorem mapError_eq_error_iff {δ : Type} {f : ε → δ} {e : δ} :
    x.mapError f = .error e ↔ ∃ cause, x = .error cause ∧ f cause = e := by
  cases x with
  | ok a => exact iff_of_false (fun h => nomatch h) fun ⟨_, h, _⟩ => nomatch h
  | error cause =>
    exact ⟨fun h => ⟨cause, rfl, Except.error.inj h⟩, fun ⟨_, h, hf⟩ =>
      congrArg Except.error (Except.error.inj h ▸ hf)⟩

section Binding

variable {f : α → Except ε β}

theorem bind_eq_ok_iff {b : β} : x >>= f = .ok b ↔ ∃ a, x = .ok a ∧ f a = .ok b := by
  cases x with
  | error e => exact iff_of_false (fun h => nomatch h) fun ⟨_, h, _⟩ => nomatch h
  | ok a => exact ⟨fun h => ⟨a, rfl, h⟩, fun ⟨_, h, hf⟩ => Except.ok.inj h ▸ hf⟩

theorem bind_eq_error_iff {e : ε} :
    x >>= f = .error e ↔ x = .error e ∨ ∃ a, x = .ok a ∧ f a = .error e := by
  cases x with
  | error cause =>
    refine ⟨fun h => .inl (congrArg _ (Except.error.inj h)), ?_⟩
    rintro (h | ⟨_, h, -⟩)
    · exact congrArg _ (Except.error.inj h)
    · cases h
  | ok a =>
    refine ⟨fun h => .inr ⟨a, rfl, h⟩, ?_⟩
    rintro (h | ⟨_, h, hf⟩)
    · cases h
    · exact Except.ok.inj h ▸ hf

end Binding

/-! ### Lists gone through up to the first failure -/

theorem forM_eq_ok_iff {f : α → Except ε Unit} : xs.forM f = .ok () ↔ ∀ a ∈ xs, f a = .ok () := by
  induction xs with
  | nil => exact iff_of_true rfl (fun _ h => absurd h List.not_mem_nil)
  | cons a xs ih =>
    have hcons : (a :: xs).forM f = (f a >>= fun _ => xs.forM f) := rfl
    rw [hcons, List.forall_mem_cons, ← ih]
    cases f a with
    | error e => exact iff_of_false (fun h => nomatch h) fun h => nomatch h.1
    | ok _ => exact (and_iff_right rfl).symm

variable {f : α → Except ε β}

theorem exists_mapM_eq_ok (h : ∀ a ∈ xs, ∃ b, f a = .ok b) : ∃ ys, xs.mapM f = .ok ys := by
  induction xs with
  | nil => exact ⟨[], rfl⟩
  | cons a xs ih =>
    obtain ⟨b, hb⟩ := h a (List.mem_cons_self ..)
    obtain ⟨ys, hys⟩ := ih fun c hc => h c (List.mem_cons_of_mem _ hc)
    refine ⟨b :: ys, ?_⟩
    rw [List.mapM_cons, hb, hys]
    rfl

/-- A list that succeeds does so at each of its members. -/
theorem forall₂_of_mapM_eq_ok {ys : List β} (h : xs.mapM f = .ok ys) :
    List.Forall₂ (fun a b => f a = .ok b) xs ys := by
  induction xs generalizing ys with
  | nil =>
    obtain rfl := Except.ok.inj h
    exact .nil
  | cons a xs ih =>
    rw [List.mapM_cons] at h
    obtain ⟨b, hb, h⟩ := bind_eq_ok_iff.1 h
    obtain ⟨rest, hrest, h⟩ := bind_eq_ok_iff.1 h
    obtain rfl := Except.ok.inj h
    exact .cons hb (ih hrest)

/-- The first failure is the one of the list. -/
theorem mapM_eq_error_of_first {before after : List α} {a : α} {e : ε}
    (hbefore : ∀ b ∈ before, ∃ c, f b = .ok c) (ha : f a = .error e) :
    (before ++ a :: after).mapM f = .error e := by
  obtain ⟨ys, hys⟩ := exists_mapM_eq_ok hbefore
  rw [List.mapM_append, hys, List.mapM_cons, ha]
  rfl

/-- A list that fails has a first failure. -/
theorem exists_first_of_mapM_eq_error {e : ε} (h : xs.mapM f = .error e) :
    ∃ before a after, xs = before ++ a :: after ∧ (∀ b ∈ before, ∃ c, f b = .ok c) ∧
      f a = .error e := by
  induction xs with
  | nil => cases h
  | cons a xs ih =>
    rw [List.mapM_cons] at h
    rcases bind_eq_error_iff.1 h with ha | ⟨c, ha, h⟩
    · exact ⟨[], a, xs, rfl, fun _ hb => absurd hb List.not_mem_nil, ha⟩
    · rcases bind_eq_error_iff.1 h with hxs | ⟨_, -, h⟩
      · obtain ⟨before, b, after, rfl, hbefore, hb⟩ := ih hxs
        exact ⟨a :: before, b, after, rfl, List.forall_mem_cons.2 ⟨⟨c, ha⟩, hbefore⟩, hb⟩
      · cases h

end ClusterSync
