/-
# A run that ends badly

A run reads its sources, and publishes what they deliver. It can end badly at five places, one
after the other (`Aborts`): a source cannot be read, the target is no directory, nothing can be
collected in, and one of two directories cannot be listed. All of them lie before the first
action on the target. What goes wrong after that is reported file by file, and the run ends
well.

So a run ends badly exactly for one of these reasons, and then it has done nothing
(`runUnder_eq_error_iff`), whatever the sources before the one that failed delivered.
-/

import ClusterSync.Proofs.Publish.Log
import ClusterSync.Proofs.Run.Collecting

namespace ClusterSync

open Publish

namespace Publish

variable {w : Writer} {faults : Faults} {scratch : String} {set : ClusterSet} {tree : FileTree}
  {p : Progress} {e : Failure}

/-- Why a publish ends badly, and with which failure. -/
inductive Writer.Aborts (w : Writer) (faults : Faults) (tree : FileTree) : Failure → Prop
  /-- There is no directory to publish into. -/
  | noTarget (target : tree.directory? w.directory = none) :
    Aborts w faults tree (.notDirectory w.directory)
  /-- There is no directory to collect the files in. -/
  | uncollectable {dir : Files.Place} {cause : Files.OsError}
    (target : tree.directory? w.directory = some dir) (fault : faults.collect = some cause) :
    Aborts w faults tree (.io cause)
  /-- It cannot be told what has been collected. -/
  | stagedUnlisted {dir : Files.Place} {cause : Files.OsError}
    (target : tree.directory? w.directory = some dir) (collectable : faults.collect = none)
    (fault : faults.listStaged = some cause) : Aborts w faults tree (.io cause)
  /-- It cannot be told what is there already. -/
  | publishedUnlisted {dir : Files.Place} {cause : Files.OsError}
    (target : tree.directory? w.directory = some dir) (collectable : faults.collect = none)
    (staged : faults.listStaged = none) (fault : faults.listPublished = some cause) :
    Aborts w faults tree (.io cause)

/-- A publish ends badly for these reasons alone. -/
theorem aborts_of_publishUnder (h : w.publishUnder faults scratch set tree = (p, .error e)) :
    w.Aborts faults tree e := by
  rw [Writer.publishUnder] at h
  cases target : tree.directory? w.directory with
  | none =>
    simp only [target, Prod.mk.injEq, Except.error.injEq] at h
    exact h.2 ▸ .noTarget target
  | some dir =>
    cases collectable : faults.collect with
    | some cause =>
      simp only [target, collectable, Prod.mk.injEq, Except.error.injEq] at h
      exact h.2 ▸ .uncollectable target collectable
    | none =>
      cases staged : faults.listStaged with
      | some cause =>
        simp only [target, collectable, staged, Prod.mk.injEq, Except.error.injEq] at h
        exact h.2 ▸ .stagedUnlisted target collectable staged
      | none =>
        cases published : faults.listPublished with
        | some cause =>
          simp only [target, collectable, staged, published, Prod.mk.injEq,
            Except.error.injEq] at h
          exact h.2 ▸ .publishedUnlisted target collectable staged published
        | none => simp [target, collectable, staged, published] at h

theorem Writer.Aborts.publishUnder_eq (h : w.Aborts faults tree e) (scratch : String)
    (set : ClusterSet) : w.publishUnder faults scratch set tree = (⟨tree, []⟩, .error e) := by
  rw [Writer.publishUnder]
  cases h with
  | noTarget target => rw [target]
  | uncollectable target fault => rw [target]; simp only [fault]
  | stagedUnlisted target collectable fault => rw [target]; simp only [collectable, fault]
  | publishedUnlisted target collectable staged fault =>
    rw [target]; simp only [collectable, staged, fault]

end Publish

namespace Runner

variable {r : Runner} {faults : Faults} {scratch : String} {set : ClusterSet} {tree : FileTree}
  {sources : List Planned} {p : Progress} {e : Failure}

/-- Can these sources be read, all of them? -/
def AllRead (tree : FileTree) (sources : List Planned) : Prop :=
  ∀ planned ∈ sources, ∃ added, planned.source.read tree = .ok added

/-- Is this the failure of the first source that cannot be read, under the label that it has? -/
def IsFirstUnread (tree : FileTree) (sources : List Planned) (e : Failure) : Prop :=
  ∃ earlier planned later cause, sources = earlier ++ planned :: later ∧ AllRead tree earlier ∧
    planned.source.read tree = .error cause ∧ e = cause.named planned.label

theorem collectInto_eq_error_iff :
    collectInto tree set sources = .error e ↔ IsFirstUnread tree sources e := by
  induction sources generalizing set with
  | nil => simp [collectInto, IsFirstUnread]
  | cons planned rest ih =>
    rw [collectInto, IsFirstUnread]
    simp only [List.cons_eq_append_iff]
    cases hread : planned.source.read tree with
    | error cause =>
      constructor
      · intro h
        exact ⟨[], planned, rest, cause, .inl ⟨rfl, rfl⟩, fun _ hx => absurd hx List.not_mem_nil,
          hread, (Except.error.inj h).symm⟩
      · rintro ⟨earlier, other, later, cause', ⟨rfl, hsplit⟩ | ⟨tail, rfl, -⟩, hearlier,
          hfails, rfl⟩
        · obtain ⟨rfl, -⟩ := List.cons.inj hsplit
          rw [Except.error.inj (hread.symm.trans hfails)]
        · -- Nothing can stand before a source that cannot be read.
          obtain ⟨added, hadded⟩ := hearlier planned (List.mem_cons_self ..)
          cases hread.symm.trans hadded
    | ok added =>
      refine ih.trans ⟨?_, ?_⟩
      · rintro ⟨earlier, other, later, cause, rfl, hearlier, hfails⟩
        refine ⟨planned :: earlier, other, later, cause, .inr ⟨earlier, rfl, rfl⟩,
          fun x hx => ?_, hfails⟩
        rcases List.mem_cons.1 hx with rfl | hx
        · exact ⟨added, hread⟩
        · exact hearlier x hx
      · rintro ⟨earlier, other, later, cause, ⟨rfl, hsplit⟩ | ⟨tail, rfl, rfl⟩, hearlier, hfails⟩
        · obtain ⟨rfl, -⟩ := List.cons.inj hsplit
          cases hread.symm.trans hfails.1
        · exact ⟨tail, other, later, cause, rfl,
            fun x hx => hearlier x (List.mem_cons_of_mem _ hx), hfails⟩

theorem allRead_of_collectInto {out : ClusterSet} (h : collectInto tree set sources = .ok out) :
    AllRead tree sources := by
  induction sources generalizing set with
  | nil => exact nofun
  | cons planned rest ih =>
    rw [collectInto] at h
    cases hread : planned.source.read tree with
    | error cause => rw [hread] at h; cases h
    | ok added =>
      rw [hread] at h
      intro x hx
      rcases List.mem_cons.1 hx with rfl | hx
      · exact ⟨added, hread⟩
      · exact ih h x hx

/-- Why a run ends badly, and with which failure. -/
inductive Aborts (r : Runner) (faults : Faults) (tree : FileTree) : Failure → Prop
  /-- A source cannot be read. -/
  | unread {e : Failure} (first : IsFirstUnread tree r.sources e) : Aborts r faults tree e
  /-- All sources have been read, and what they deliver cannot be published. -/
  | unpublished {e : Failure} (reads : AllRead tree r.sources)
    (aborts : r.writer.Aborts faults tree e) : Aborts r faults tree e

/-- **A run that ends badly has changed nothing**, and it ends badly for one of the reasons that
come before the first change. -/
theorem runUnder_eq_error_iff :
    r.runUnder faults scratch tree = (p, .error e) ↔
      r.Aborts faults tree e ∧ p.tree = tree ∧ p.log = [] := by
  rw [runUnder, collect]
  constructor
  · intro h
    cases hset : collectInto tree .empty r.sources with
    | error cause =>
      rw [hset] at h
      obtain ⟨rfl, hcause⟩ := Prod.mk.inj h
      obtain rfl := Except.error.inj hcause
      exact ⟨.unread (collectInto_eq_error_iff.1 hset), rfl, rfl⟩
    | ok set =>
      cases hpub : r.writer.publishUnder faults scratch set tree with
      | mk q result =>
        simp only [hset, hpub] at h
        cases result with
        | ok report => cases (Prod.mk.inj h).2
        | error cause =>
          obtain ⟨rfl, hcause⟩ := Prod.mk.inj h
          obtain rfl := Except.error.inj hcause
          obtain rfl := publishUnder_eq_error hpub
          exact ⟨.unpublished (allRead_of_collectInto hset) (aborts_of_publishUnder hpub), rfl, rfl⟩
  · rintro ⟨h, htree, hlog⟩
    obtain rfl : p = ⟨tree, []⟩ := by
      cases p
      exact congr (congrArg _ htree) hlog
    cases h with
    | unread first => rw [collectInto_eq_error_iff.2 first]
    | unpublished reads aborts =>
      obtain ⟨set, hset, -⟩ := exists_collectInto_eq_ok .empty reads
      simp only [hset, aborts.publishUnder_eq scratch set]
      rfl

/-- A run whose second source cannot be read fails under the label of that source, and the
first one leaves no trace. -/
example : ({ writer := { directory := "out" },
             sources := [sampleSource .merge "first" "w1",
               ⟨"second", .merge, ⟨"gone", fun _ => .error (.io .notFound)⟩⟩] } : Runner).run
      "scratch" .empty =
    (⟨.empty, []⟩, .error (.source "second" (Failure.io .notFound).message)) := rfl

end Runner
end ClusterSync
