/-
# Keys that are published as they are

Of the keys that are published under one name the greatest counts. A key that needs no change may
be one of them: another key, which has white space or semicolons where this one has underscores, is
published under the same name. Which of the two is greater is told by the first character of the
other key that is changed (`Normal.lt_iff_firstBreak?`), since up to there the keys are the same.

Semicolons and the white space of ASCII come before the underscore, and all other white space comes
after it (`Normal.underscore_lt_iff`). So a key that needs no change keeps its value, unless there
is a key that `Overtakes` it: one whose first such character is not ASCII, a no-break space for
instance.
-/

import ClusterSync.Proofs.Cluster.Collisions

namespace ClusterSync
namespace Normal

variable {data : Attributes} {key k : String} {a : Attribute} {cs : List Char} {c : Char}

/-- The first character of a key that may not stand in one. -/
def firstBreak? (key : String) : Option Char := key.toList.find? isKeyBreak

theorem underscore_ne (h : isKeyBreak c = true) : '_' ≠ c := by
  rintro rfl
  exact absurd h (by decide)

/-- The first character that is changed decides which of the texts is greater. -/
theorem map_lt_iff :
    cs.map (fun c => if isKeyBreak c then '_' else c) < cs ↔
      ∃ c, cs.find? isKeyBreak = some c ∧ '_' < c := by
  induction cs with
  | nil => simp
  | cons c cs ih =>
    rw [List.map_cons, List.cons_lt_cons_iff]
    by_cases hc : isKeyBreak c = true
    · simp [hc, underscore_ne hc]
    · simpa [hc] using ih

/-- **A key is greater than the one it is published under** exactly if the first of its characters
that may not stand in a key comes after the underscore. -/
theorem lt_iff_firstBreak? : ofKey k < k ↔ ∃ c, firstBreak? k = some c ∧ '_' < c := by
  show (ofKey k).toList < k.toList ↔ _
  rw [ofKey, String.toList_ofList]
  exact map_lt_iff

/-- Of the characters that may not stand in a key, those after the underscore are not ASCII. -/
theorem underscore_lt_iff (h : isKeyBreak c = true) : '_' < c ↔ 0x7F < c.toNat := by
  have hlt : '_' < c ↔ 0x5F < c.toNat := Iff.rfl
  have hbreak : c = ';' ∨ Text.isBlank c = true := by
    simpa [isKeyBreak] using h
  rw [hlt]
  constructor
  · intro hc
    rcases hbreak with rfl | hblank
    · exact absurd hc (by decide)
    · simp only [Text.isBlank, Bool.or_eq_true, Bool.and_eq_true, decide_eq_true_eq,
        beq_iff_eq] at hblank
      omega
  · omega

/-- Does a key come after the one that it is published under? The first of its characters that may
not stand in a key is then white space beyond ASCII. -/
def Overtakes (key : String) : Prop := ∃ c, firstBreak? key = some c ∧ 0x7F < c.toNat

theorem overtakes_iff : Overtakes k ↔ ofKey k < k := by
  rw [lt_iff_firstBreak?]
  refine exists_congr fun c => and_congr_right fun hc => ?_
  exact (underscore_lt_iff (List.find?_some hc)).symm

instance (key : String) : Decidable (Overtakes key) := decidable_of_iff' _ overtakes_iff

/-- **What becomes of a key that is published as it is.** It keeps its value if no key of the
cluster that is published under it overtakes it. If one does, the greatest of those that are
published under it counts, and this is again one that overtakes it. -/
theorem get?_ofAttributes_of_kept (hget : data.get? key = some a) (kept : ofKey key = key) :
    ((∀ k ∈ data.keys, ofKey k = key → ¬ Overtakes k) →
      (ofAttributes data).get? key = some (ofAttribute a)) ∧
    ((∃ k ∈ data.keys, ofKey k = key ∧ Overtakes k) →
      ∃ last b, data.get? last = some b ∧ ofKey last = key ∧ Overtakes last ∧
        (∀ k ∈ data.keys, ofKey k = key → k ≤ last) ∧
        (ofAttributes data).get? key = some (ofAttribute b)) := by
  have hkey : key ∈ data.keys := Table.mem_keys_iff_exists.2 ⟨a, hget⟩
  constructor
  · intro hnone
    have hlast : lastKey? data key = some key := by
      refine lastKey?_eq_some_iff.2 ⟨hkey, kept, fun k hk hname => ?_⟩
      refine Std.not_lt.1 fun hlt => hnone k hk hname (overtakes_iff.2 ?_)
      rw [hname]
      exact hlt
    simp [get?_ofAttributes, hlast, hget]
  · rintro ⟨k, hk, hname, hover⟩
    cases hlast : lastKey? data key with
    | none => exact absurd hname (lastKey?_eq_none_iff.1 hlast k hk)
    | some last =>
      obtain ⟨hlastKey, hlastName, hmax⟩ := lastKey?_eq_some_iff.1 hlast
      obtain ⟨b, hb⟩ := Table.mem_keys_iff_exists.1 hlastKey
      refine ⟨last, b, hb, hlastName, overtakes_iff.2 ?_, hmax, ?_⟩
      · rw [hlastName, ← hname]
        exact Std.lt_of_lt_of_le (overtakes_iff.1 hover) (hmax k hk hname)
      · simp [get?_ofAttributes, hlast, hb]

/-- Three keys that are published under one name, none of which overtakes the first one. -/
def spacedNotes : Attributes :=
  .ofList [("NOTE_TEXT", .one (.text "own")), ("NOTE TEXT", .one (.text "space")),
    ("NOTE;TEXT", .one (.text "semicolon"))]

/-- The same keys, and one that has a no-break space. -/
def unbrokenNotes : Attributes :=
  spacedNotes.insert "NOTE\u00A0TEXT" (.one (.text "no-break"))

/-- Beside a space and a semicolon the key keeps its value, beside a no-break space as well it does
not. -/
theorem get?_ofAttributes_of_kept_notes :
    (ofAttributes spacedNotes).get? "NOTE_TEXT" = some (.one (.text "own")) ∧
      ∃ last b, unbrokenNotes.get? last = some b ∧ Overtakes last ∧
        (ofAttributes unbrokenNotes).get? "NOTE_TEXT" = some (ofAttribute b) := by
  have kept : ofKey "NOTE_TEXT" = "NOTE_TEXT" := by decide
  have hspaced : spacedNotes.get? "NOTE_TEXT" = some (.one (.text "own")) := by decide +kernel
  have hunbroken : unbrokenNotes.get? "NOTE_TEXT" = some (.one (.text "own")) := by
    decide +kernel
  constructor
  · exact (get?_ofAttributes_of_kept hspaced kept).1 (by decide +kernel)
  · obtain ⟨last, b, hb, -, hover, -, hvalue⟩ :=
      (get?_ofAttributes_of_kept hunbroken kept).2 (by decide +kernel)
    exact ⟨last, b, hb, hover, hvalue⟩

/-- **A key that is published as it is may be overwritten**, by one that has a no-break space where
it has an underscore. -/
theorem ofAttributes_overwrites_own :
    (unbrokenNotes.get? "NOTE_TEXT" = some (.one (.text "own")) ∧
      (ofAttributes unbrokenNotes).get? "NOTE_TEXT" = some (.one (.text "no-break"))) ∧
    ¬ ∀ (data : Attributes) (key : String) (a : Attribute), data.get? key = some a →
      ofKey key = key → (ofAttributes data).get? key = some (ofAttribute a) := by
  have hown : unbrokenNotes.get? "NOTE_TEXT" = some (.one (.text "own")) := by decide +kernel
  have hover : (ofAttributes unbrokenNotes).get? "NOTE_TEXT" =
      some (.one (.text "no-break")) := by
    decide +kernel
  refine ⟨⟨hown, hover⟩, fun h => ?_⟩
  have hkeeps := h unbrokenNotes "NOTE_TEXT" _ hown (by decide)
  rw [hover] at hkeeps
  exact absurd hkeeps (by decide)

end Normal
end ClusterSync
