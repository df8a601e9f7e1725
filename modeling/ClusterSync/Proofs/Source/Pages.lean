/-
# Pages of tags and the links that are found

A page is made of text, closing tags, and opening tags that have one link among their attributes
(`Links.Piece`, `Links.Tag`). The value of the link is written in one of three ways
(`Links.Style`), and each is read as it was written (`Style.value?_write`).

A scan knows nothing of attributes: it stops at the first head it meets. There are two places for
one besides the link itself (`Attribute.Misleads`): the end of a name such as `data-href`, and a
value such as `href=x`. In front of the link such an attribute is read in its place
(`Tag.tag?_text_ne`). Behind the link it is passed over, unless the opening of a tag stands in front
of it, in a value (`Reopens`); then it is read as a link more (`Tag.targets_back_ne_nil`). A tag
without either is clear, and it is found as its link in every page (`Tag.isClear_iff`).
-/

import ClusterSync.Proofs.Source.LinkScanning
import ClusterSync.Proofs.Text

namespace ClusterSync
namespace Links

variable {cs rest gap value : List Char} {c : Char}

/-! ### Attributes -/

/-- Can a text be the name of an attribute? -/
def IsPlainName (name : List Char) : Prop :=
  ∀ c ∈ name, Text.isBlank c = false ∧ c ≠ '=' ∧ c ≠ '>'

instance (name : List Char) : Decidable (IsPlainName name) :=
  List.decidableBAll (fun c => Text.isBlank c = false ∧ c ≠ '=' ∧ c ≠ '>') name

/-- Can a text stand in double quotes in a tag? -/
def IsPlainValue (value : List Char) : Prop := ∀ c ∈ value, c ≠ '"' ∧ c ≠ '>'

instance (value : List Char) : Decidable (IsPlainValue value) :=
  List.decidableBAll (fun c => c ≠ '"' ∧ c ≠ '>') value

/-- An attribute of a tag that tells no link: its value stands in double quotes. -/
structure Attribute where
  /-- The white space in front of it. -/
  gap : List Char
  name : List Char
  value : List Char
  gap_ne_nil : gap ≠ [] := by decide
  isGap : IsGap gap := by decide
  name_ne : ¬ IsLinkWord name := by decide
  name_plain : IsPlainName name := by decide
  value_plain : IsPlainValue value := by decide

namespace Attribute

variable {a : Attribute}

/-- An attribute as it is written. -/
def text (a : Attribute) : List Char :=
  a.gap ++ (a.name ++ '=' :: '"' :: (a.value ++ ['"']))

/-- Can an attribute be mistaken for a link? The word `href` is at the end of its name, or in its
value with an equals sign behind it. -/
def Misleads (a : Attribute) : Prop :=
  (∃ word, IsLinkWord word ∧ word <:+ a.name) ∨ NamesLink a.value

/-- Attributes in turn. -/
def texts (attributes : List Attribute) : List Char := attributes.flatMap text

theorem end_notMem_text (a : Attribute) : '>' ∉ a.text := by
  rw [text]
  simp only [List.mem_append, List.mem_cons, List.not_mem_nil, or_false]
  rintro (h | h | h | h | h | h)
  · exact absurd (a.isGap _ h) (by decide)
  · exact (a.name_plain _ h).2.2 rfl
  · exact absurd h (by decide)
  · exact absurd h (by decide)
  · exact (a.value_plain _ h).2 rfl
  · exact absurd h (by decide)

theorem end_notMem_texts (attributes : List Attribute) : '>' ∉ texts attributes := by
  intro h
  obtain ⟨a, -, ha⟩ := List.mem_flatMap.1 h
  exact a.end_notMem_text ha

/-- A link is named in a name with its equals sign if the word ends the name. -/
theorem namesLink_name_iff (a : Attribute) :
    NamesLink (a.name ++ ['=']) ↔ ∃ word, IsLinkWord word ∧ word <:+ a.name := by
  constructor
  · rintro ⟨head, hhead, hwithin⟩
    have hequals : ¬ head <:+: a.name := fun h =>
      (a.name_plain _ (h.subset hhead.equals_mem)).2.1 rfl
    obtain ⟨word, gap, rfl, hword, hgap⟩ := hhead
    have hsuffix := (List.infix_concat_iff.1 hwithin).resolve_right hequals
    rcases List.suffix_concat_iff.1 hsuffix with h | ⟨t, ht, hname⟩
    · simp at h
    · obtain ⟨rfl, -⟩ := List.append_inj' ht rfl
      -- a name has no white space
      have hnil : gap = [] := List.eq_nil_iff_forall_not_mem.2 fun c hc => by
        have hplain := (a.name_plain c (hname.subset (List.mem_append_right word hc))).1
        rw [hgap c hc] at hplain
        cases hplain
      exact ⟨word, hword, by simpa [hnil] using hname⟩
  · rintro ⟨word, hword, hname⟩
    obtain ⟨front, hfront⟩ := hname
    refine ⟨word ++ [] ++ ['='], ⟨word, [], rfl, hword, nofun⟩, ?_⟩
    rw [← hfront, List.append_nil, List.append_assoc]
    exact (List.suffix_append ..).isInfix

/-- An attribute does not mislead if its name ends with another word and its value has no equals
sign. -/
theorem not_misleads (hname : ¬ IsLinkWord (a.name.drop (a.name.length - 4)))
    (hvalue : '=' ∉ a.value) : ¬ a.Misleads := by
  rintro (⟨word, hword, hsuffix⟩ | hnames)
  · have hlength : word.length = 4 := by simpa using congrArg List.length hword
    rw [List.suffix_iff_eq_drop.1 hsuffix, hlength] at hword
    exact hname hword
  · exact hvalue hnames.equals_mem

theorem namesLink_text_append_iff (a : Attribute) (rest : List Char) :
    NamesLink (a.text ++ rest) ↔ a.Misleads ∨ NamesLink rest := by
  have htext : a.text ++ rest =
      a.gap ++ ((a.name ++ ['=']) ++ '"' :: (a.value ++ '"' :: rest)) := by
    simp [text]
  rw [htext, namesLink_gap_append_iff a.isGap, namesLink_append_cons_iff quote_notMem_of_isHead,
    namesLink_append_cons_iff quote_notMem_of_isHead, namesLink_name_iff, Misleads, or_assoc]

/-- **Attributes name a link if one of them misleads.** -/
theorem namesLink_texts_iff {attributes : List Attribute} :
    NamesLink (texts attributes) ↔ ∃ a ∈ attributes, a.Misleads := by
  induction attributes with
  | nil => simp [texts, not_namesLink_nil]
  | cons a attributes ih =>
    have htexts : texts (a :: attributes) = a.text ++ texts attributes := List.flatMap_cons ..
    rw [htexts, namesLink_text_append_iff, ih]
    simp

/-- Attributes begin with white space and end with a quote. -/
theorem exists_texts_eq {attributes : List Attribute} (h : attributes ≠ []) :
    ∃ blank inner, texts attributes = blank :: (inner ++ ['"']) ∧ Text.isBlank blank = true := by
  induction attributes with
  | nil => exact absurd rfl h
  | cons a attributes ih =>
    obtain ⟨blank, gap, hgap⟩ := List.exists_cons_of_ne_nil a.gap_ne_nil
    have hblank : Text.isBlank blank = true := a.isGap _ (hgap ▸ List.mem_cons_self ..)
    by_cases hnil : attributes = []
    · refine ⟨blank, gap ++ (a.name ++ '=' :: '"' :: a.value), ?_, hblank⟩
      simp [hnil, texts, text, hgap]
    · obtain ⟨other, inner, hinner, -⟩ := ih hnil
      refine ⟨blank, gap ++ (a.name ++ '=' :: '"' :: (a.value ++ '"' :: other :: inner)), ?_,
        hblank⟩
      have htexts : texts (a :: attributes) = a.text ++ texts attributes := List.flatMap_cons ..
      simp [htexts, hinner, text, hgap]

/-- What attributes with white space behind them end with: a part of the white space, or a text with
the last quote. -/
theorem suffix_texts_append {attributes : List Attribute} {s : List Char}
    (hs : s <:+ texts attributes ++ gap) :
    s <:+ gap ∨ ∃ front, s = front ++ '"' :: gap ∧ front ++ ['"'] <:+ texts attributes := by
  rcases List.suffix_or_suffix_of_suffix hs (List.suffix_append _ gap) with h | ⟨front, rfl⟩
  · exact .inl h
  · have hfront : front <:+ texts attributes := ((List.suffix_append_inj_of_length_eq rfl).1 hs).1
    by_cases hnil : attributes = []
    · rw [hnil] at hfront
      obtain rfl := List.suffix_nil.1 hfront
      exact .inl (List.suffix_refl _)
    · obtain ⟨blank, inner, htexts, -⟩ := exists_texts_eq hnil
      rw [htexts, ← List.cons_append] at hfront
      rcases List.suffix_concat_iff.1 hfront with rfl | ⟨front, rfl, -⟩
      · exact .inl (List.suffix_refl _)
      · refine .inr ⟨front, by simp, ?_⟩
        rw [htexts, ← List.cons_append]
        exact hfront

end Attribute

/-! ### Values -/

/-- Can a text be a value without quotes? -/
def IsBareValue (value : List Char) : Prop :=
  (∀ c ∈ value, isBare c = true) ∧ ∃ c ∈ value.head?, c ≠ '"' ∧ c ≠ '\''

instance (value : List Char) : Decidable (IsBareValue value) :=
  haveI : Decidable (∀ c ∈ value, isBare c = true) :=
    List.decidableBAll (fun c => isBare c = true) value
  haveI : Decidable (∃ c ∈ value.head?, c ≠ '"' ∧ c ≠ '\'') :=
    match value with
    | [] => isFalse fun ⟨_, h, _⟩ => nomatch h
    | c :: _ => decidable_of_iff (c ≠ '"' ∧ c ≠ '\'') (by simp)
  inferInstanceAs (Decidable (_ ∧ _))

/-- The ways in which the value of a link is written. -/
inductive Style
  | double
  | single
  | bare

namespace Style

/-- A value as it is written. -/
def write : Style → List Char → List Char
  | double, value => '"' :: (value ++ ['"'])
  | single, value => '\'' :: (value ++ ['\''])
  | bare, value => value

/-- Which values can be written so? -/
def Admits : Style → List Char → Prop
  | double, value => '"' ∉ value
  | single, value => '\'' ∉ value
  | bare, value => IsBareValue value

instance : ∀ (style : Style) (value : List Char), Decidable (style.Admits value)
  | double, value => inferInstanceAs (Decidable ('"' ∉ value))
  | single, value => inferInstanceAs (Decidable ('\'' ∉ value))
  | bare, value => inferInstanceAs (Decidable (IsBareValue value))

variable {style : Style}

/-- **A value is read as it is written**, in front of what may not stand in it without quotes. -/
theorem value?_write (h : style.Admits value) (hstop : ∀ c ∈ rest.head?, isBare c = false) :
    value? (style.write value ++ rest) = some (value, rest) := by
  cases style with
  | double =>
    have hquoted : quoted? '"' (value ++ ['"'] ++ rest) = some (value, rest) :=
      quoted?_eq_some_iff.2 ⟨by simp, h⟩
    simp only [write, List.cons_append, value?, hquoted]
    rfl
  | single =>
    have hquoted : quoted? '\'' (value ++ ['\''] ++ rest) = some (value, rest) :=
      quoted?_eq_some_iff.2 ⟨by simp, h⟩
    simp only [write, List.cons_append, value?, hquoted]
    rfl
  | bare =>
    obtain ⟨hall, first, hfirst, hdouble, hsingle⟩ := h
    obtain ⟨value, rfl⟩ := List.head?_eq_some_iff.1 (Option.mem_def.1 hfirst)
    have hbare : bare? (first :: value ++ rest) = some (first :: value, rest) :=
      bare?_eq_some_iff.2 ⟨rfl, List.cons_ne_nil _ _, hall, hstop⟩
    rw [write]
    unfold value?
    split
    · next heq => exact absurd (List.cons.inj heq).1 hdouble
    · next heq => exact absurd (List.cons.inj heq).1 hsingle
    · exact hbare

/-- What is written for a value does not begin with white space. -/
theorem dropWhile_write (h : style.Admits value) (rest : List Char) :
    (style.write value ++ rest).dropWhile Text.isBlank = style.write value ++ rest := by
  cases style with
  | double => rfl
  | single => rfl
  | bare =>
    obtain ⟨hall, first, hfirst, -⟩ := h
    obtain ⟨value, rfl⟩ := List.head?_eq_some_iff.1 (Option.mem_def.1 hfirst)
    have hblank : Text.isBlank first = false := by
      have hbare := hall first (List.mem_cons_self ..)
      rw [isBare, Bool.and_eq_true, Bool.not_eq_true'] at hbare
      exact hbare.1
    exact List.dropWhile_cons_of_neg (by simp [hblank])

end Style

/-! ### Tags -/

/-- An opening tag with one link among its attributes. -/
structure Tag where
  /-- The letter of its name, `a` in either case. -/
  letter : Char
  before : List Attribute
  /-- The white space in front of the link. -/
  gap : List Char
  word : List Char
  /-- The white space on both sides of the equals sign. -/
  left : List Char
  right : List Char
  style : Style
  target : List Char
  after : List Attribute
  /-- The white space in front of the end. -/
  close : List Char
  isLetter : letter.toLower = 'a' := by decide
  gap_ne_nil : gap ≠ [] := by decide
  isGap : IsGap gap := by decide
  isLinkWord : IsLinkWord word := by decide
  isGap_left : IsGap left := by decide
  isGap_right : IsGap right := by decide
  admits : style.Admits target := by decide
  isGap_close : IsGap close := by decide

/-- Does a text open a tag of a link, and name a link behind that? -/
def Reopens (cs : List Char) : Prop :=
  ∃ letter blank rest, letter.toLower = 'a' ∧ Text.isBlank blank = true ∧
    '<' :: letter :: blank :: rest <:+ cs ∧ NamesLink rest

theorem not_reopens (h : '<' ∉ cs) : ¬ Reopens cs := fun ⟨_, _, _, _, _, hsuffix, _⟩ =>
  h (hsuffix.subset (List.mem_cons_self ..))

namespace Tag

variable {t : Tag}

/-- The link of a tag as it is written. -/
def link (t : Tag) : List Char :=
  t.word ++ t.left ++ ['='] ++ (t.right ++ t.style.write t.target)

/-- What comes behind the link of a tag. -/
def back (t : Tag) : List Char := Attribute.texts t.after ++ t.close ++ ['>']

/-- A tag as it is written. -/
def text (t : Tag) : List Char :=
  '<' :: t.letter :: (Attribute.texts t.before ++ t.gap ++ (t.link ++ t.back))

/-- Is there nothing in a tag that can be mistaken for its link, or for another one? No attribute in
front of the link misleads, and none behind it opens a tag in which a link is named. -/
def IsClear (t : Tag) : Prop := (∀ a ∈ t.before, ¬ a.Misleads) ∧ ¬ Reopens t.back

theorem head?_back (t : Tag) (rest : List Char) :
    ∀ c ∈ (t.back ++ rest).head?, isBare c = false := by
  have hblank : ∀ {c : Char}, Text.isBlank c = true → isBare c = false := fun h => by
    rw [isBare, h]
    rfl
  intro c hc
  rw [back] at hc
  by_cases hafter : t.after = []
  · cases hclose : t.close with
    | nil =>
      rw [hafter, hclose] at hc
      obtain rfl : '>' = c := Option.some.inj hc
      rfl
    | cons d close =>
      rw [hafter, hclose] at hc
      obtain rfl : d = c := Option.some.inj hc
      exact hblank (t.isGap_close d (hclose ▸ List.mem_cons_self ..))
  · obtain ⟨blank, inner, htexts, hisBlank⟩ := Attribute.exists_texts_eq hafter
    rw [htexts] at hc
    obtain rfl : blank = c := Option.some.inj hc
    exact hblank hisBlank

/-- The link of a tag is read. -/
theorem target?_link (t : Tag) (rest : List Char) :
    target? (t.link ++ (t.back ++ rest)) = some (t.target, t.back ++ rest) := by
  refine target?_eq_some_iff.2 ⟨t.word ++ t.left ++ ['='],
    t.right ++ (t.style.write t.target ++ (t.back ++ rest)),
    ⟨_, _, rfl, t.isLinkWord, t.isGap_left⟩, by simp [link], ?_⟩
  rw [List.dropWhile_append_of_pos t.isGap_right, Style.dropWhile_write t.admits]
  exact Style.value?_write t.admits (t.head?_back rest)

/-- Nothing in front of the link begins one, if no attribute there misleads. -/
theorem target?_front (hclear : ∀ a ∈ t.before, ¬ a.Misleads) {s : List Char}
    (hs : s <:+ Attribute.texts t.before ++ t.gap) (hne : s ≠ []) (rest : List Char) :
    target? (s ++ rest) = none := by
  by_contra hsome
  obtain ⟨head, hhead, hbegins⟩ := exists_head_of_target? hsome
  rcases Attribute.suffix_texts_append hs with hgap | ⟨front, rfl, hfront⟩
  · obtain ⟨c, s, rfl⟩ := List.exists_cons_of_ne_nil hne
    exact hhead.not_prefix_of_isBlank (t.isGap c (hgap.subset (List.mem_cons_self ..))) hbegins
  · -- the head stands in front of the last quote, among the attributes
    rw [List.append_assoc, List.cons_append,
      prefix_append_cons_iff (quote_notMem_of_isHead head hhead)] at hbegins
    have hnames : NamesLink (Attribute.texts t.before) :=
      ⟨head, hhead, hbegins.isInfix.trans ((List.prefix_append ..).isInfix.trans hfront.isInfix)⟩
    obtain ⟨a, ha, hmisleads⟩ := Attribute.namesLink_texts_iff.1 hnames
    exact hclear a ha hmisleads

/-- The text in front of the link of a tag begins with white space. -/
theorem exists_front_eq (t : Tag) : ∃ blank front,
    Attribute.texts t.before ++ t.gap = blank :: front ∧ Text.isBlank blank = true := by
  by_cases hbefore : t.before = []
  · obtain ⟨blank, gap, hgap⟩ := List.exists_cons_of_ne_nil t.gap_ne_nil
    refine ⟨blank, gap, ?_, t.isGap blank (hgap ▸ List.mem_cons_self ..)⟩
    rw [hbefore, hgap]
    rfl
  · obtain ⟨blank, inner, htexts, hblank⟩ := Attribute.exists_texts_eq hbefore
    exact ⟨blank, inner ++ ['"'] ++ t.gap, by rw [htexts, List.cons_append], hblank⟩

theorem end_notMem_front (t : Tag) : '>' ∉ Attribute.texts t.before ++ t.gap := by
  rw [List.mem_append]
  rintro (h | h)
  · exact Attribute.end_notMem_texts _ h
  · exact absurd (t.isGap _ h) (by decide)

/-- **A tag is read as its link** if no attribute in front of it misleads. -/
theorem tag?_text (hclear : ∀ a ∈ t.before, ¬ a.Misleads) (rest : List Char) :
    tag? (t.text ++ rest) = some (t.target, t.back ++ rest) := by
  obtain ⟨blank, front, hfront, hblank⟩ := t.exists_front_eq
  have hsuffix : front <:+ Attribute.texts t.before ++ t.gap := hfront ▸ List.suffix_cons ..
  refine tag?_eq_some_iff.2 ⟨t.letter, blank, front ++ (t.link ++ (t.back ++ rest)), ?_,
    t.isLetter, hblank, ?_⟩
  · simp only [text, hfront, List.cons_append, List.append_assoc]
  · rw [inTag?_append (fun s hs hne => target?_front hclear (hs.trans hsuffix) hne _)
      fun h => t.end_notMem_front (hsuffix.subset h)]
    exact inTag?_of_target? (t.target?_link rest)

/-- **A tag is not read as its link** if an attribute in front of it misleads. What is read then
takes up an equals sign more. -/
theorem tag?_text_ne {a : Attribute} (ha : a ∈ t.before) (hmisleads : a.Misleads)
    (rest : List Char) : tag? (t.text ++ rest) ≠ some (t.target, t.back ++ rest) := by
  intro h
  have hnames : NamesLink (Attribute.texts t.before) :=
    Attribute.namesLink_texts_iff.2 ⟨a, ha, hmisleads⟩
  obtain ⟨blank, inner, htexts, hblank⟩ :=
    Attribute.exists_texts_eq (List.ne_nil_of_mem ha)
  have hinner : NamesLink inner := by
    have hgap : IsGap [blank] := fun c hc => List.mem_singleton.1 hc ▸ hblank
    rw [htexts, ← List.singleton_append, namesLink_gap_append_iff hgap,
      namesLink_append_cons_iff quote_notMem_of_isHead] at hnames
    exact hnames.resolve_right not_namesLink_nil
  have hend : '>' ∉ inner := fun hmem => Attribute.end_notMem_texts t.before
    (htexts ▸ List.mem_cons_of_mem _ (List.mem_append_left _ hmem))
  obtain ⟨s, found, -, hequals, hfound, hscan⟩ :=
    exists_target?_of_namesLink hinner hend (t.gap ++ (t.link ++ (t.back ++ rest)))
  have htext : t.text ++ rest =
      '<' :: t.letter :: blank :: (inner ++ '"' :: (t.gap ++ (t.link ++ (t.back ++ rest)))) := by
    simp [text, htexts]
  have hread : tag? (t.text ++ rest) = some found :=
    tag?_eq_some_iff.2 ⟨_, _, _, htext, t.isLetter, hblank, hscan⟩
  obtain rfl := Option.some.inj (hread.symm.trans h)
  have hcount := count_equals_of_target? hfound
  have hpos := List.count_pos_iff.2 hequals
  have hlink := count_equals_of_target? (t.target?_link rest)
  simp only [List.count_append] at hcount hlink
  simp only [List.count_cons, List.count_append] at hcount
  omega

/-! ### Behind the link -/

/-- Nothing behind the link begins a tag with a link, if the text there does not open one again. -/
theorem tag?_back (hclear : ¬ Reopens t.back) {s : List Char} (hs : s <:+ t.back) (hne : s ≠ [])
    (rest : List Char) : tag? (s ++ rest) = none := by
  by_contra hsome
  obtain ⟨found, hfound⟩ := Option.ne_none_iff_exists'.1 hsome
  obtain ⟨letter, blank, behind, hcs, hletter, hblank, hscan⟩ := tag?_eq_some_iff.1 hfound
  obtain ⟨inner, rfl, -⟩ := (List.suffix_concat_iff.1 hs).resolve_left hne
  rw [List.append_assoc, List.singleton_append] at hcs
  -- the three characters of the opening stand in front of the end
  match inner, hcs, hs with
  | [], hcs, _ => cases hcs
  | [_], hcs, _ =>
    obtain ⟨rfl, -⟩ := List.cons.inj (List.cons.inj hcs).2
    revert hletter
    decide
  | [_, _], hcs, _ =>
    obtain ⟨rfl, -⟩ := List.cons.inj (List.cons.inj (List.cons.inj hcs).2).2
    cases hblank
  | _ :: _ :: _ :: inner, hcs, hs =>
    simp only [List.cons_append, List.cons.injEq] at hcs
    obtain ⟨rfl, rfl, rfl, rfl⟩ := hcs
    have hnames : NamesLink inner := namesLink_of_inTag? (hscan ▸ Option.some_ne_none found)
    exact hclear ⟨_, _, _, hletter, hblank, hs, hnames.mono (List.prefix_append ..).isInfix⟩

theorem targets_back (hclear : ¬ Reopens t.back) (rest : List Char) :
    targets (t.back ++ rest) = targets rest :=
  targets_append fun _ hs hne => tag?_back hclear hs hne rest

/-- A link that is named behind the link of a tag has a value. -/
theorem inTag?_back_ne_none {s : List Char} (hs : s <:+ t.back) (hnames : NamesLink s) :
    inTag? s ≠ none := by
  have hgap : ∀ u, u <:+ t.close → ¬ NamesLink u := fun u hu h =>
    absurd (t.isGap_close _ (hu.subset h.equals_mem)) (by decide)
  rcases List.suffix_concat_iff.1 hs with rfl | ⟨inner, rfl, hinner⟩
  · exact absurd hnames not_namesLink_nil
  · have hbefore : NamesLink inner :=
      ((namesLink_append_cons_iff end_notMem_of_isHead).1 hnames).resolve_right not_namesLink_nil
    rcases Attribute.suffix_texts_append hinner with h | ⟨front, rfl, hfront⟩
    · exact absurd hbefore (hgap inner h)
    · have hnamed : NamesLink front :=
        ((namesLink_append_cons_iff quote_notMem_of_isHead).1 hbefore).resolve_right
          (hgap _ (List.suffix_refl _))
      have hend : '>' ∉ front := fun h =>
        Attribute.end_notMem_texts _ (hfront.subset (List.mem_append_left _ h))
      obtain ⟨-, found, -, -, -, hscan⟩ :=
        exists_target?_of_namesLink hnamed hend (t.close ++ ['>'])
      rw [List.append_assoc, List.cons_append, hscan]
      exact Option.some_ne_none found

/-- A text behind a link that opens a tag again and names a link has a link of its own. -/
theorem targets_back_ne_nil (h : Reopens t.back) : targets t.back ≠ [] := by
  obtain ⟨letter, blank, behind, hletter, hblank, hsuffix, hnames⟩ := h
  refine targets_ne_nil hsuffix fun hnone => ?_
  have hbehind : behind <:+ t.back :=
    (((List.suffix_cons ..).trans (List.suffix_cons ..)).trans (List.suffix_cons ..)).trans hsuffix
  obtain ⟨found, hscan⟩ := Option.ne_none_iff_exists'.1 (inTag?_back_ne_none hbehind hnames)
  have hfound : tag? ('<' :: letter :: blank :: behind) = some found :=
    tag?_eq_some_iff.2 ⟨letter, blank, behind, rfl, hletter, hblank, hscan⟩
  cases hnone.symm.trans hfound

/-- **A tag is clear exactly if it is read as its link in every page**, and nothing behind the link
is. -/
theorem isClear_iff : t.IsClear ↔ ∀ rest,
    tag? (t.text ++ rest) = some (t.target, t.back ++ rest) ∧
      targets (t.back ++ rest) = targets rest := by
  constructor
  · intro h rest
    exact ⟨tag?_text h.1 rest, targets_back h.2 rest⟩
  · intro h
    refine ⟨fun a ha hmisleads => tag?_text_ne ha hmisleads [] (h []).1, fun hreopens => ?_⟩
    refine targets_back_ne_nil hreopens ?_
    have hback := (h []).2
    rw [List.append_nil] at hback
    exact hback.trans (by rw [targets])

theorem IsClear.targets_text (h : t.IsClear) (rest : List Char) :
    targets (t.text ++ rest) = t.target :: targets rest := by
  obtain ⟨htag, hback⟩ := isClear_iff.1 h rest
  rw [targets_of_some htag, hback]

end Tag

/-! ### Pages -/

/-- A piece of a page. -/
inductive Piece
  /-- Text without a tag. -/
  | plain (cs : List Char) (isPlain : '<' ∉ cs)
  | closing
  | opening (t : Tag)

namespace Piece

/-- A piece as it is written. -/
def text : Piece → List Char
  | plain cs _ => cs
  | closing => ['<', '/', 'a', '>']
  | opening t => t.text

/-- The link of a piece, if it has one. -/
def target? : Piece → Option (List Char)
  | opening t => some t.target
  | _ => none

end Piece

/-- A page as it is written. -/
def pageText (page : List Piece) : List Char := page.flatMap Piece.text

/-- Text without an opening is passed over. -/
theorem targets_plain {cs : List Char} (h : '<' ∉ cs) (rest : List Char) :
    targets (cs ++ rest) = targets rest := by
  refine targets_append fun s hs hne => ?_
  by_contra hsome
  obtain ⟨found, hfound⟩ := Option.ne_none_iff_exists'.1 hsome
  obtain ⟨letter, blank, behind, hcs, -⟩ := tag?_eq_some_iff.1 hfound
  obtain ⟨c, s, rfl⟩ := List.exists_cons_of_ne_nil hne
  obtain ⟨rfl, -⟩ := List.cons.inj hcs
  exact h (hs.subset (List.mem_cons_self ..))

theorem targets_closing (rest : List Char) :
    targets (['<', '/', 'a', '>'] ++ rest) = targets rest := by
  have hnone : tag? ('<' :: (['/', 'a', '>'] ++ rest)) = none := rfl
  exact (targets_cons_of_none hnone).trans (targets_plain (by decide) rest)

/-- **The targets of a page are those of its tags**, in their order. -/
theorem targets_pageText {page : List Piece} (clear : ∀ t, .opening t ∈ page → t.IsClear) :
    targets (pageText page) = page.filterMap Piece.target? := by
  induction page with
  | nil => rw [pageText, List.flatMap_nil, targets, List.filterMap_nil]
  | cons piece page ih =>
    have hrest := ih fun t ht => clear t (List.mem_cons_of_mem _ ht)
    have htext : pageText (piece :: page) = piece.text ++ pageText page := List.flatMap_cons ..
    rw [htext]
    cases piece with
    | plain cs hcs => exact (targets_plain hcs _).trans hrest
    | closing => exact (targets_closing _).trans hrest
    | opening t =>
      have hfirst := (clear t (List.mem_cons_self ..)).targets_text (pageText page)
      exact hfirst.trans (congrArg (t.target :: ·) hrest)

/-- **The links of a page are exactly the targets of its tags**, as far as they pass, in byte order
and each once, if every tag is clear. Being clear is no more than is needed for that: it is what it
takes for a tag to be read as its link, and for nothing behind the link to be read, whatever comes
behind the tag. -/
theorem ofPage_finds (page : List Piece) (passes : String → Bool) :
    ((∀ t, .opening t ∈ page → t.IsClear) →
      (ofPage passes (String.ofList (pageText page))).Pairwise (· < ·) ∧
      ∀ link, link ∈ ofPage passes (String.ofList (pageText page)) ↔
        passes link = true ∧ ∃ t, .opening t ∈ page ∧ link.toList = t.target) ∧
    ∀ t : Tag, t.IsClear ↔ ∀ rest,
      tag? (t.text ++ rest) = some (t.target, t.back ++ rest) ∧
        targets (t.back ++ rest) = targets rest := by
  refine ⟨fun clear => ⟨Text.pairwise_sortUnique _, fun link => ?_⟩, fun t => Tag.isClear_iff⟩
  rw [ofPage, Text.mem_sortUnique, List.mem_filter, String.toList_ofList, targets_pageText clear,
    and_comm]
  refine and_congr_right fun _ => ?_
  constructor
  · intro h
    obtain ⟨cs, hcs, rfl⟩ := List.mem_map.1 h
    obtain ⟨piece, hpiece, htarget⟩ := List.mem_filterMap.1 hcs
    cases piece with
    | opening t =>
      refine ⟨t, hpiece, ?_⟩
      rw [String.toList_ofList]
      exact (Option.some.inj htarget).symm
    | _ => cases htarget
  · rintro ⟨t, ht, htarget⟩
    exact List.mem_map.2 ⟨link.toList,
      List.mem_filterMap.2 ⟨.opening t, ht, congrArg some htarget.symm⟩, String.ofList_toList⟩

/-- The tag `<a id="x" HREF = 'web.yaml'>`. -/
def tagWeb : Tag where
  letter := 'a'
  before := [{ gap := [' '], name := ['i', 'd'], value := ['x'] }]
  gap := [' ']
  word := "HREF".toList
  left := [' ']
  right := [' ']
  style := .single
  target := "web.yaml".toList
  after := []
  close := []

/-- The tag `<A href=db.yaml class="f">`. -/
def tagDb : Tag where
  letter := 'A'
  before := []
  gap := [' ']
  word := "href".toList
  left := []
  right := []
  style := .bare
  target := "db.yaml".toList
  after := [{ gap := [' '], name := "class".toList, value := ['f'] }]
  close := []

/-- A page with both tags. -/
def twoTags : List Piece :=
  [.plain "See ".toList (by decide), .opening tagWeb, .plain "web".toList (by decide), .closing,
    .opening tagDb, .closing]

theorem isClear_tagWeb : tagWeb.IsClear := by
  refine ⟨fun a ha => ?_, not_reopens (by decide)⟩
  obtain rfl := List.mem_singleton.1 ha
  exact Attribute.not_misleads (by decide) (by decide)

theorem isClear_tagDb : tagDb.IsClear :=
  ⟨fun _ ha => absurd ha List.not_mem_nil, not_reopens (by decide)⟩

/-- The hypothesis of `ofPage_finds` is satisfiable. -/
theorem ofPage_finds_twoTags :
    (∀ t, .opening t ∈ twoTags → t.IsClear) ∧
    String.ofList (pageText twoTags) =
      "See <a id=\"x\" HREF = 'web.yaml'>web</a><A href=db.yaml class=\"f\"></a>" ∧
    "web.yaml" ∈ ofPage (· != "db.yaml") (String.ofList (pageText twoTags)) ∧
    "db.yaml" ∉ ofPage (· != "db.yaml") (String.ofList (pageText twoTags)) := by
  have clear : ∀ t, .opening t ∈ twoTags → t.IsClear := by
    intro t ht
    simp only [twoTags, List.mem_cons, Piece.opening.injEq, reduceCtorEq, List.not_mem_nil,
      false_or, or_false] at ht
    rcases ht with rfl | rfl
    · exact isClear_tagWeb
    · exact isClear_tagDb
  obtain ⟨-, hmem⟩ := (ofPage_finds twoTags (· != "db.yaml")).1 clear
  refine ⟨clear, by decide +kernel, (hmem _).2 ⟨by decide, tagWeb, ?_, rfl⟩, fun h => ?_⟩
  · exact List.mem_cons_of_mem _ (List.mem_cons_self ..)
  · exact absurd ((hmem _).1 h).1 (by decide)

/-- The tag `<a data-href="old.yaml" href="web.yaml">`. -/
def tagOld : Tag where
  letter := 'a'
  before := [{ gap := [' '], name := "data-href".toList, value := "old.yaml".toList }]
  gap := [' ']
  word := "href".toList
  left := []
  right := []
  style := .double
  target := "web.yaml".toList
  after := []
  close := []

/-- **An attribute whose name ends like that of a link takes its place.** A word is not kept apart
from what stands in front of it. -/
theorem ofPage_mistakes_tagOld :
    String.ofList (pageText [.opening tagOld]) = "<a data-href=\"old.yaml\" href=\"web.yaml\">" ∧
    tagOld.target = "web.yaml".toList ∧
    ofPage (fun _ => true) (String.ofList (pageText [.opening tagOld])) = ["old.yaml"] := by
  refine ⟨by decide +kernel, rfl, ?_⟩
  have htargets : targets (pageText [.opening tagOld]) = ["old.yaml".toList] := by decide +kernel
  rw [ofPage, String.toList_ofList, htargets]
  decide +kernel

end Links
end ClusterSync
