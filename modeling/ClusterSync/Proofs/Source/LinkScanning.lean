/-
# Scanning a page for links

A scan looks for a tag, and in it for the word `href` with an equals sign, which is a head
(`Links.IsHead`). It takes the value behind the first one and goes on there. Each of the readers is
told here by the text that it accepts (`target?_eq_some_iff`, `quoted?_eq_some_iff`,
`bare?_eq_some_iff`, `tag?_eq_some_iff`).

A head has neither quotes nor the end of a tag in it. So a quote parts a text into two, and a link
is named in the whole if and only if it is named in one of them (`namesLink_append_cons_iff`). In
front of a quote there is always a value, so a scan never passes over a link that is named there
(`exists_target?_of_namesLink`). Each link that is read takes up an equals sign more than its value
has (`count_equals_of_target?`), which tells one find from another.
-/

import Mathlib.Data.List.Infix
import Mathlib.Data.List.TakeWhile
import ClusterSync.Source.Links

namespace ClusterSync
namespace Links

/-! ### Pieces of lists -/

section Pieces

variable {α : Type} {l xs ys : List α} {x : α}

/-- What does not have a member of a list begins in front of it or not at all. -/
theorem prefix_append_cons_iff (h : x ∉ l) : l <+: xs ++ x :: ys ↔ l <+: xs := by
  constructor
  · intro hl
    rcases List.prefix_or_prefix_of_prefix hl (List.prefix_append xs (x :: ys)) with hxs | ⟨m, rfl⟩
    · exact hxs
    · -- what of `l` is left behind `xs` would begin with `x`
      rcases List.prefix_cons_iff.1 ((List.prefix_append_right_inj xs).1 hl) with rfl | ⟨t, rfl, -⟩
      · rw [List.append_nil]
      · exact absurd (List.mem_append_right xs (List.mem_cons_self ..)) h
  · intro hl
    exact hl.trans (List.prefix_append ..)

/-- What does not have a member of a list stands on one side of it. -/
theorem infix_append_cons_iff (h : x ∉ l) : l <:+: xs ++ x :: ys ↔ l <:+: xs ∨ l <:+: ys := by
  induction xs with
  | nil => rw [List.nil_append, List.infix_cons_iff, ← List.nil_append (x :: ys),
      prefix_append_cons_iff h, List.prefix_nil, List.infix_nil]
  | cons a xs ih =>
    rw [List.cons_append, List.infix_cons_iff, ih, ← List.cons_append, prefix_append_cons_iff h,
      List.infix_cons_iff, or_assoc]

end Pieces

variable {cs pre rest gap more head value : List Char} {c : Char}
  {found : List Char × List Char}

/-- Small letters are made of capitals, and all other characters stay. -/
theorem toNat_toLower (c : Char) :
    c.toLower.toNat = if 65 ≤ c.toNat ∧ c.toNat ≤ 90 then c.toNat + 32 else c.toNat := by
  have hcapital : (c.val ≥ 'A'.val ∧ c.val ≤ 'Z'.val) ↔ 65 ≤ c.toNat ∧ c.toNat ≤ 90 := by
    rw [ge_iff_le, UInt32.le_iff_toNat_le, UInt32.le_iff_toNat_le]
    rfl
  unfold Char.toLower
  split
  · next h =>
    rw [if_pos (hcapital.1 h)]
    have hle := (hcapital.1 h).2
    have hsum : (c.val + ('a'.val - 'A'.val)).toNat = (c.toNat + 32) % 2 ^ 32 := UInt32.toNat_add ..
    exact hsum.trans (Nat.mod_eq_of_lt (by omega))
  · next h => rw [if_neg (fun hc => h (hcapital.2 hc))]

/-- A character that is no small letter is the small form of no other one. -/
theorem eq_of_toLower_eq {c d : Char} (h : c.toLower = d) (hd : ¬ (97 ≤ d.toNat ∧ d.toNat ≤ 122)) :
    c = d := by
  have hnat := toNat_toLower c
  rw [h] at hnat
  refine Char.toNat_inj.1 ?_
  split at hnat <;> omega

theorem toLower_eq_self_of_isBlank {c : Char} (h : Text.isBlank c = true) : c.toLower = c := by
  refine Char.toNat_inj.1 ((toNat_toLower c).trans (if_neg ?_))
  simp [Text.isBlank] at h
  omega

/-! ### Naming a link -/

/-- The word `href`, in any letter case. -/
def IsLinkWord (word : List Char) : Prop := word.map Char.toLower = ['h', 'r', 'e', 'f']

instance (word : List Char) : Decidable (IsLinkWord word) :=
  inferInstanceAs (Decidable (_ = _))

/-- Is all of a text white space? -/
def IsGap (gap : List Char) : Prop := ∀ c ∈ gap, Text.isBlank c = true

instance (gap : List Char) : Decidable (IsGap gap) :=
  List.decidableBAll (fun c => Text.isBlank c = true) gap

/-- What stands in front of the value of a link: the word and an equals sign, with white space or
none between. -/
def IsHead (head : List Char) : Prop :=
  ∃ word gap, head = word ++ gap ++ ['='] ∧ IsLinkWord word ∧ IsGap gap

/-- Does a text name a link? -/
def NamesLink (cs : List Char) : Prop := ∃ head, IsHead head ∧ head <:+: cs

/-- The characters of a head. -/
theorem IsHead.mem (h : IsHead head) (hc : c ∈ head) :
    c.toLower ∈ ['h', 'r', 'e', 'f'] ∨ Text.isBlank c = true ∨ c = '=' := by
  obtain ⟨word, gap, rfl, hword, hgap⟩ := h
  simp only [List.mem_append, List.mem_singleton] at hc
  rcases hc with (hc | hc) | hc
  · exact .inl (hword ▸ List.mem_map_of_mem hc)
  · exact .inr (.inl (hgap c hc))
  · exact .inr (.inr hc)

theorem quote_notMem_of_isHead (head : List Char) (h : IsHead head) : '"' ∉ head := fun hmem => by
  have := h.mem hmem
  revert this
  decide

theorem end_notMem_of_isHead (head : List Char) (h : IsHead head) : '>' ∉ head := fun hmem => by
  have := h.mem hmem
  revert this
  decide

theorem IsHead.equals_mem (h : IsHead head) : '=' ∈ head := by
  obtain ⟨word, gap, rfl, -, -⟩ := h
  simp

/-- A head begins with a letter of the word. -/
theorem IsHead.toLower_eq (h : IsHead head) (hbegins : head <+: c :: cs) : c.toLower = 'h' := by
  obtain ⟨word, gap, rfl, hword, -⟩ := h
  cases word with
  | nil => cases hword
  | cons d word =>
    obtain ⟨rfl, -⟩ := List.cons_prefix_cons.1 (by simpa using hbegins)
    exact (List.cons.inj hword).1

theorem IsHead.not_prefix_of_isBlank (h : IsHead head) (hc : Text.isBlank c = true) :
    ¬ head <+: c :: cs := by
  intro hbegins
  have hlower := h.toLower_eq hbegins
  rw [toLower_eq_self_of_isBlank hc] at hlower
  rw [hlower] at hc
  cases hc

theorem IsHead.not_prefix_of_end (h : IsHead head) : ¬ head <+: '>' :: cs := by
  intro hbegins
  have hlower := h.toLower_eq hbegins
  revert hlower
  decide

theorem NamesLink.equals_mem (h : NamesLink cs) : '=' ∈ cs := by
  obtain ⟨head, hhead, hwithin⟩ := h
  exact hwithin.subset hhead.equals_mem

theorem NamesLink.mono (h : NamesLink cs) (hwithin : cs <:+: more) : NamesLink more := by
  obtain ⟨head, hhead, hcs⟩ := h
  exact ⟨head, hhead, hcs.trans hwithin⟩

theorem not_namesLink_nil : ¬ NamesLink [] := fun h => absurd h.equals_mem List.not_mem_nil

/-- **A character that is in no head parts the texts that name links.** -/
theorem namesLink_append_cons_iff (hc : ∀ head, IsHead head → c ∉ head) :
    NamesLink (cs ++ c :: rest) ↔ NamesLink cs ∨ NamesLink rest := by
  constructor
  · rintro ⟨head, hhead, hwithin⟩
    rcases (infix_append_cons_iff (hc head hhead)).1 hwithin with h | h
    · exact .inl ⟨head, hhead, h⟩
    · exact .inr ⟨head, hhead, h⟩
  · rintro (h | h)
    · exact h.mono (List.prefix_append ..).isInfix
    · exact h.mono ((List.suffix_cons ..).trans (List.suffix_append ..)).isInfix

theorem namesLink_gap_append_iff (hgap : IsGap gap) :
    NamesLink (gap ++ cs) ↔ NamesLink cs := by
  induction gap with
  | nil => rw [List.nil_append]
  | cons c gap ih =>
    rw [← ih fun d hd => hgap d (List.mem_cons_of_mem c hd)]
    constructor
    · rintro ⟨head, hhead, hwithin⟩
      rcases List.infix_cons_iff.1 hwithin with h | h
      · exact absurd h (hhead.not_prefix_of_isBlank (hgap c (List.mem_cons_self ..)))
      · exact ⟨head, hhead, h⟩
    · intro h
      exact h.mono (List.suffix_cons ..).isInfix

/-! ### Reading one link -/

theorem behind?_eq_some_iff {small : List Char} :
    behind? small cs = some rest ↔ ∃ word, cs = word ++ rest ∧ word.map Char.toLower = small := by
  induction small generalizing cs with
  | nil => simp [behind?, List.map_eq_nil_iff, eq_comm]
  | cons d small ih =>
    constructor
    · intro h
      cases cs with
      | nil => cases h
      | cons c cs =>
        rw [behind?] at h
        split at h
        · next hc =>
          obtain ⟨word, rfl, hword⟩ := ih.1 h
          exact ⟨c :: word, rfl, by rw [List.map_cons, hc, hword]⟩
        · cases h
    · rintro ⟨word, rfl, hword⟩
      obtain ⟨c, word, rfl, hc, hrest⟩ := List.map_eq_cons_iff.1 hword
      rw [List.cons_append, behind?, if_pos hc]
      exact ih.2 ⟨word, rfl, hrest⟩

/-- **What a link is**: a head, and behind it a value, with white space or none between. -/
theorem target?_eq_some_iff :
    target? cs = some found ↔
      ∃ head more, IsHead head ∧ cs = head ++ more ∧
        value? (more.dropWhile Text.isBlank) = some found := by
  rw [target?]
  constructor
  · intro h
    split at h
    · cases h
    · next behind hbehind =>
      obtain ⟨word, rfl, hword⟩ := behind?_eq_some_iff.1 hbehind
      split at h
      · next more hmore =>
        refine ⟨word ++ behind.takeWhile Text.isBlank ++ ['='], more,
          ⟨word, _, rfl, hword, fun c hc => List.mem_takeWhile_imp hc⟩, ?_, h⟩
        have hsplit := List.takeWhile_append_dropWhile (p := Text.isBlank) (l := behind)
        rw [hmore] at hsplit
        simp only [List.append_assoc, List.singleton_append]
        rw [hsplit]
      · cases h
  · rintro ⟨head, more, ⟨word, gap, rfl, hword, hgap⟩, rfl, hvalue⟩
    have hbehind : behind? ['h', 'r', 'e', 'f'] (word ++ gap ++ ['='] ++ more) =
        some (gap ++ '=' :: more) := behind?_eq_some_iff.2 ⟨word, by simp, hword⟩
    have hequals : (gap ++ '=' :: more).dropWhile Text.isBlank = '=' :: more :=
      (List.dropWhile_append_of_pos hgap).trans rfl
    rw [hbehind]
    simp only [hequals]
    exact hvalue

/-- A link begins with a head. -/
theorem exists_head_of_target? (h : target? cs ≠ none) : ∃ head, IsHead head ∧ head <+: cs := by
  obtain ⟨found, hfound⟩ := Option.ne_none_iff_exists'.1 h
  obtain ⟨head, more, hhead, rfl, -⟩ := target?_eq_some_iff.1 hfound
  exact ⟨head, hhead, List.prefix_append ..⟩

theorem bare?_ne_none (h : isBare c = true) : bare? (c :: cs) ≠ none := by
  rw [bare?, List.takeWhile_cons_of_pos h]
  exact Option.some_ne_none _

/-- Any character but white space and the end of a tag begins a value. -/
theorem value?_ne_none (h : isBare c = true) : value? (c :: cs) ≠ none := by
  have hor : ∀ a : Option (List Char × List Char), a.or (bare? (c :: cs)) ≠ none := by
    intro a
    rw [ne_eq, Option.or_eq_none_iff]
    exact fun hnone => bare?_ne_none h hnone.2
  unfold value?
  split
  · next heq =>
    obtain ⟨rfl, rfl⟩ := List.cons.inj heq
    exact hor _
  · next heq =>
    obtain ⟨rfl, rfl⟩ := List.cons.inj heq
    exact hor _
  · exact bare?_ne_none h

/-- **A text in quotes** goes up to the first quote. -/
theorem quoted?_eq_some_iff {quote : Char} :
    quoted? quote cs = some (value, rest) ↔ cs = value ++ quote :: rest ∧ quote ∉ value := by
  rw [quoted?]
  constructor
  · intro h
    split at h
    · cases h
    · next c behind hdrop =>
      have hvalue := Option.some.inj h
      obtain ⟨rfl, rfl⟩ := Prod.mk.inj hvalue
      have hc : c = quote := by
        have hfirst := List.head?_dropWhile_not (· != quote) cs
        rw [hdrop] at hfirst
        simpa using hfirst
      have hsplit := List.takeWhile_append_dropWhile (p := (· != quote)) (l := cs)
      rw [hdrop, hc] at hsplit
      exact ⟨hsplit.symm, fun hmem => by simpa using List.mem_takeWhile_imp hmem⟩
  · rintro ⟨rfl, hnone⟩
    have hall : ∀ c ∈ value, (c != quote) = true := fun c hc =>
      bne_iff_ne.2 fun heq => hnone (heq ▸ hc)
    have hstop : (quote != quote) = false := bne_self_eq_false quote
    simp only [List.dropWhile_append_of_pos hall, List.takeWhile_append_of_pos hall,
      List.dropWhile_cons, List.takeWhile_cons, hstop, if_false, List.append_nil,
      Bool.false_eq_true]

/-- **A value without quotes** goes up to the first character that may not stand in it. -/
theorem bare?_eq_some_iff :
    bare? cs = some (value, rest) ↔ cs = value ++ rest ∧ value ≠ [] ∧
      (∀ c ∈ value, isBare c = true) ∧ ∀ c ∈ rest.head?, isBare c = false := by
  rw [bare?]
  constructor
  · intro h
    split at h
    · cases h
    · next hne =>
      obtain ⟨rfl, rfl⟩ := Prod.mk.inj (Option.some.inj h)
      refine ⟨List.takeWhile_append_dropWhile.symm, hne, fun c hc => List.mem_takeWhile_imp hc, ?_⟩
      intro c hc
      have hfirst := List.head?_dropWhile_not isBare cs
      rw [Option.mem_def.1 hc] at hfirst
      simpa using hfirst
  · rintro ⟨rfl, hne, hall, hstop⟩
    rw [List.takeWhile_append_of_pos hall, List.dropWhile_append_of_pos hall]
    cases rest with
    | nil => simp
    | cons c rest =>
      have hc : isBare c = false := hstop c rfl
      simp [hc]

/-- The ways in which a value can stand at the front of a text. -/
theorem value?_cases (h : value? cs = some (value, rest)) :
    (∃ quote, (quote = '"' ∨ quote = '\'') ∧ cs = quote :: (value ++ quote :: rest)) ∨
      cs = value ++ rest := by
  unfold value? at h
  split at h
  · rcases Option.or_eq_some_iff.1 h with hquoted | ⟨-, hbare⟩
    · exact .inl ⟨_, .inl rfl, by rw [(quoted?_eq_some_iff.1 hquoted).1]⟩
    · exact .inr (bare?_eq_some_iff.1 hbare).1
  · rcases Option.or_eq_some_iff.1 h with hquoted | ⟨-, hbare⟩
    · exact .inl ⟨_, .inr rfl, by rw [(quoted?_eq_some_iff.1 hquoted).1]⟩
    · exact .inr (bare?_eq_some_iff.1 hbare).1
  · exact .inr (bare?_eq_some_iff.1 h).1

/-! ### Equals signs -/

theorem count_equals_of_isGap (h : IsGap gap) : gap.count '=' = 0 :=
  List.count_eq_zero.2 fun hmem => absurd (h _ hmem) (by decide)

theorem IsHead.count_equals (h : IsHead head) : head.count '=' = 1 := by
  obtain ⟨word, gap, rfl, hword, hgap⟩ := h
  have hnone : word.count '=' = 0 := by
    refine List.count_eq_zero.2 fun hmem => ?_
    have hsmall : Char.toLower '=' ∈ ['h', 'r', 'e', 'f'] := hword ▸ List.mem_map_of_mem hmem
    revert hsmall
    decide
  simp [hnone, count_equals_of_isGap hgap]

/-- **A link takes up one equals sign**, besides those of its value. -/
theorem count_equals_of_target? (h : target? cs = some (value, rest)) :
    cs.count '=' = 1 + value.count '=' + rest.count '=' := by
  obtain ⟨head, more, hhead, rfl, hvalue⟩ := target?_eq_some_iff.1 h
  have hmore : more.count '=' = (more.dropWhile Text.isBlank).count '=' := by
    have hgap : IsGap (more.takeWhile Text.isBlank) := fun c hc => List.mem_takeWhile_imp hc
    conv_lhs => rw [← List.takeWhile_append_dropWhile (p := Text.isBlank) (l := more)]
    rw [List.count_append, count_equals_of_isGap hgap, Nat.zero_add]
  rw [List.count_append, hhead.count_equals, hmore, Nat.add_assoc]
  rcases value?_cases hvalue with ⟨quote, rfl | rfl, hcs⟩ | hcs
  · rw [hcs]; simp
  · rw [hcs]; simp
  · rw [hcs]; simp

/-! ### Scanning a tag -/

theorem inTag?_of_target? (h : target? cs = some found) : inTag? cs = some found := by
  cases cs with
  | nil => cases h
  | cons c cs => rw [inTag?, h]

/-- What starts no link and does not end the tag is passed over. -/
theorem inTag?_append (hstart : ∀ s, s <:+ pre → s ≠ [] → target? (s ++ rest) = none)
    (hend : '>' ∉ pre) : inTag? (pre ++ rest) = inTag? rest := by
  induction pre with
  | nil => rfl
  | cons c pre ih =>
    obtain ⟨hc, hend⟩ := not_or.1 (mt List.mem_cons.2 hend)
    have hnone := hstart _ (List.suffix_refl _) (List.cons_ne_nil c pre)
    rw [List.cons_append] at hnone ⊢
    rw [inTag?, hnone]
    simp only [Ne.symm hc, if_false]
    exact ih (fun s hs hne => hstart s (hs.trans (List.suffix_cons ..)) hne) hend

/-- What is found in a tag is named before its end. -/
theorem namesLink_of_inTag? (h : inTag? (cs ++ '>' :: rest) ≠ none) : NamesLink cs := by
  induction cs with
  | nil =>
    have hnone : target? ('>' :: rest) = none := by
      by_contra hne
      obtain ⟨head, hhead, hbegins⟩ := exists_head_of_target? hne
      exact hhead.not_prefix_of_end hbegins
    rw [List.nil_append, inTag?, hnone] at h
    exact absurd rfl h
  | cons c cs ih =>
    rw [List.cons_append, inTag?] at h
    cases htarget : target? (c :: (cs ++ '>' :: rest)) with
    | some found =>
      obtain ⟨head, hhead, hbegins⟩ := exists_head_of_target? (htarget ▸ Option.some_ne_none found)
      rw [← List.cons_append, prefix_append_cons_iff (end_notMem_of_isHead head hhead)] at hbegins
      exact ⟨head, hhead, hbegins.isInfix⟩
    | none =>
      rw [htarget] at h
      dsimp only at h
      split at h
      · exact absurd rfl h
      · exact (ih h).mono (List.suffix_cons ..).isInfix

/-- A link that is named in front of a quote has a value. -/
theorem target?_append_quote_ne_none (hhead : IsHead head) (hbegins : head <+: cs)
    (hend : '>' ∉ cs) (rest : List Char) : target? (cs ++ '"' :: rest) ≠ none := by
  obtain ⟨more, rfl⟩ := hbegins
  obtain ⟨c, behind, hdrop, hc⟩ : ∃ c behind,
      (more ++ '"' :: rest).dropWhile Text.isBlank = c :: behind ∧ isBare c = true := by
    rw [List.dropWhile_append]
    cases hmore : more.dropWhile Text.isBlank with
    | nil => exact ⟨'"', rest, rfl, rfl⟩
    | cons c behind =>
      refine ⟨c, behind ++ '"' :: rest, rfl, ?_⟩
      have hblank : Text.isBlank c = false := by
        have hfirst := List.head?_dropWhile_not Text.isBlank more
        rw [hmore] at hfirst
        simpa using hfirst
      have hmem : c ∈ more := (List.dropWhile_sublist _).subset (hmore ▸ List.mem_cons_self ..)
      have hne : c ≠ '>' := fun heq => hend (List.mem_append_right head (heq ▸ hmem))
      rw [isBare, hblank, bne_iff_ne.2 hne]
      rfl
  obtain ⟨found, hfound⟩ := Option.ne_none_iff_exists'.1 (value?_ne_none hc)
  have htarget : target? (head ++ more ++ '"' :: rest) = some found :=
    target?_eq_some_iff.2 ⟨head, more ++ '"' :: rest, hhead, List.append_assoc .., hdrop ▸ hfound⟩
  rw [htarget]
  exact Option.some_ne_none found

/-- **Where a tag names a link in front of a quote, a scan stops there**, or before it. What it has
found took up an equals sign of this text. -/
theorem exists_target?_of_namesLink (hnames : NamesLink cs) (hend : '>' ∉ cs) (rest : List Char) :
    ∃ s found, s <:+ cs ∧ '=' ∈ s ∧ target? (s ++ '"' :: rest) = some found ∧
      inTag? (cs ++ '"' :: rest) = some found := by
  induction cs with
  | nil => exact absurd hnames not_namesLink_nil
  | cons c cs ih =>
    cases htarget : target? (c :: cs ++ '"' :: rest) with
    | some found =>
      exact ⟨c :: cs, found, List.suffix_refl _, hnames.equals_mem, htarget,
        inTag?_of_target? htarget⟩
    | none =>
      obtain ⟨hc, hend'⟩ := not_or.1 (mt List.mem_cons.2 hend)
      have hlater : NamesLink cs := by
        obtain ⟨head, hhead, hwithin⟩ := hnames
        rcases List.infix_cons_iff.1 hwithin with hbegins | hwithin
        · exact absurd htarget (target?_append_quote_ne_none hhead hbegins hend rest)
        · exact ⟨head, hhead, hwithin⟩
      obtain ⟨s, found, hs, hequals, hfound, hscan⟩ := ih hlater hend'
      refine ⟨s, found, hs.trans (List.suffix_cons ..), hequals, hfound, ?_⟩
      rw [List.cons_append] at htarget ⊢
      rw [inTag?, htarget]
      simp only [Ne.symm hc, if_false]
      exact hscan

/-! ### Tags in a text -/

theorem tag?_eq_some_iff :
    tag? cs = some found ↔ ∃ letter blank behind, cs = '<' :: letter :: blank :: behind ∧
      letter.toLower = 'a' ∧ Text.isBlank blank = true ∧ inTag? behind = some found := by
  rw [tag?]
  constructor
  · intro h
    split at h
    · next blank behind hbehind =>
      obtain ⟨word, rfl, hword⟩ := behind?_eq_some_iff.1 hbehind
      obtain ⟨first, word, rfl, hfirst, hrest⟩ := List.map_eq_cons_iff.1 hword
      obtain ⟨letter, word, rfl, hletter, hnil⟩ := List.map_eq_cons_iff.1 hrest
      obtain rfl := List.map_eq_nil_iff.1 hnil
      obtain rfl : first = '<' := eq_of_toLower_eq hfirst (by decide)
      split at h
      · next hblank => exact ⟨letter, blank, behind, rfl, hletter, hblank, h⟩
      · cases h
    · cases h
  · rintro ⟨letter, blank, behind, rfl, hletter, hblank, h⟩
    have hbehind : behind? ['<', 'a'] ('<' :: letter :: blank :: behind) =
        some (blank :: behind) :=
      behind?_eq_some_iff.2 ⟨['<', letter], rfl, congrArg (['<', ·]) hletter⟩
    rw [hbehind]
    simp only [hblank, if_true]
    exact h

theorem targets_cons_of_none (h : tag? (c :: cs) = none) : targets (c :: cs) = targets cs := by
  rw [targets]
  split
  · next hfound => cases h.symm.trans hfound
  · rfl

theorem targets_of_some (h : tag? cs = some (value, rest)) :
    targets cs = value :: targets rest := by
  cases cs with
  | nil => cases h
  | cons c cs =>
    rw [targets]
    split
    · next hfound =>
      obtain ⟨rfl, rfl⟩ := Prod.mk.inj (Option.some.inj (h.symm.trans hfound))
      rfl
    · next hnone => cases h.symm.trans hnone

/-- What starts no tag with a link is passed over. -/
theorem targets_append (h : ∀ s, s <:+ pre → s ≠ [] → tag? (s ++ rest) = none) :
    targets (pre ++ rest) = targets rest := by
  induction pre with
  | nil => rfl
  | cons c pre ih =>
    have hnone : tag? (c :: (pre ++ rest)) = none :=
      h _ (List.suffix_refl _) (List.cons_ne_nil c pre)
    rw [List.cons_append, targets_cons_of_none hnone]
    exact ih fun s hs hne => h s (hs.trans (List.suffix_cons ..)) hne

/-- A tag with a link is found, or one before it. -/
theorem targets_ne_nil {s : List Char} (hs : s <:+ cs) (h : tag? s ≠ none) : targets cs ≠ [] := by
  induction cs with
  | nil =>
    obtain rfl := List.suffix_nil.1 hs
    exact absurd rfl h
  | cons c cs ih =>
    cases htag : tag? (c :: cs) with
    | some found =>
      obtain ⟨value, rest⟩ := found
      rw [targets_of_some htag]
      exact List.cons_ne_nil _ _
    | none =>
      rw [targets_cons_of_none htag]
      rcases List.suffix_cons_iff.1 hs with rfl | hs
      · exact absurd htag h
      · exact ih hs

end Links
end ClusterSync
