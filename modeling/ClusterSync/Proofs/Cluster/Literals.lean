/-
# Literals and what they stand for

Every value that publishing changes becomes the literal of its escaped text
(`Normal.toList_ofText_of_ne`). In an escaped text each parenthesis has a backslash in front of it;
without these it is the text again (`Normal.unescape_escape`). So a value can be told from what is
published for it, and two values that are no literals are never published alike
(`Normal.ofText_recover`).

The server reads a literal from its beginning: a backslash takes the next character as it stands,
and the first closing parenthesis that has not been taken is the end (`Normal.readLiteral`). The
backslashes of the value itself are not escaped, so they take part in this. Where an odd number of
them stands in front of a closing parenthesis, the last one takes the backslash that was put there,
and the parenthesis ends the literal too early; at the end of the value it takes the parenthesis
that ought to end it (`Normal.ofText_leaves_open`). Only where backslashes come in pairs is the end
of the literal the end of the text (`Normal.closes_escape_iff`).
-/

import Mathlib.Algebra.Group.Nat.Even
import Mathlib.Data.List.DropRight
import ClusterSync.Proofs.Cluster.ValueForm

namespace ClusterSync
namespace Normal

variable {cs rest body : List Char} {c : Char} {s t : String} {taken : Bool}

/-! ### Taking the escapes back -/

/-- The text without the backslash directly in front of each parenthesis. -/
def unescape : List Char → List Char
  | [] => []
  | c :: rest => if c = '\\' ∧ rest.head?.any isParen then unescape rest else c :: unescape rest

theorem isParen_iff : isParen c = true ↔ c = '(' ∨ c = ')' := by
  rw [isParen, Bool.or_eq_true, beq_iff_eq, beq_iff_eq]

theorem ne_backslash_of_isParen (h : isParen c = true) : c ≠ '\\' := by
  rintro rfl
  cases h

/-- An escaped text does not begin with a parenthesis. -/
theorem any_head?_escape (cs : List Char) : (escape cs).head?.any isParen = false := by
  cases cs with
  | nil => rfl
  | cons c cs =>
    cases h : isParen c with
    | true =>
      rw [escape_cons_of_paren h]
      rfl
    | false =>
      rw [escape_cons_of_not_paren h]
      exact h

theorem unescape_escape (cs : List Char) : unescape (escape cs) = cs := by
  induction cs with
  | nil => rfl
  | cons c cs ih =>
    have hkeep : unescape (c :: escape cs) = c :: cs := by
      rw [unescape, if_neg (by simp [any_head?_escape]), ih]
    cases h : isParen c with
    | true =>
      rw [escape_cons_of_paren h, unescape, if_pos ⟨rfl, h⟩, hkeep]
    | false => rw [escape_cons_of_not_paren h, hkeep]

theorem quote_inj : quote cs = quote body ↔ cs = body := by
  simp [quote]

/-- **What publishing changes it makes the literal of the escaped text.** -/
theorem toList_ofText_of_ne (h : ofText s ≠ s) : (ofText s).toList = quote (escape s.toList) := by
  rw [toList_ofText, valueChars_eq, if_neg fun hform => h (ofText_eq_self_iff.2 hform)]

/-- A value that is no literal is what is published for it, or what stands inside of the literal
that is, without the escapes. -/
theorem eq_of_ofText (h : ¬ IsLiteral s.toList) :
    (¬ IsLiteral (ofText s).toList → ofText s = s) ∧
      ∀ body, (ofText s).toList = quote body → s.toList = unescape body := by
  by_cases hsame : ofText s = s
  · refine ⟨fun _ => hsame, fun body hbody => absurd ⟨body, ?_⟩ h⟩
    rw [← hbody, hsame]
  · have hquote := toList_ofText_of_ne hsame
    refine ⟨fun hno => absurd ⟨_, hquote⟩ hno, fun body hbody => ?_⟩
    rw [← quote_inj.1 (hquote.symm.trans hbody), unescape_escape]

/-- **Publishing loses no value.** Values that are no literals are published alike only if they
are the same. What is published for such a value is the value, if that is no literal, and
otherwise what stands in the literal is the value, once the backslash in front of each parenthesis
is taken away; other backslashes are the value's own. -/
theorem ofText_recover (hs : ¬ IsLiteral s.toList) (ht : ¬ IsLiteral t.toList) :
    (ofText s = ofText t → s = t) ∧ (¬ IsLiteral (ofText s).toList → s = ofText s) ∧
      ∀ body, (ofText s).toList = quote body → s.toList = unescape body := by
  obtain ⟨hplain, hliteral⟩ := eq_of_ofText hs
  obtain ⟨hplain', hliteral'⟩ := eq_of_ofText ht
  refine ⟨fun heq => ?_, fun hno => (hplain hno).symm, hliteral⟩
  by_cases hno : IsLiteral (ofText s).toList
  · obtain ⟨body, hbody⟩ := hno
    rw [← String.toList_inj, hliteral body hbody, hliteral' body (heq ▸ hbody)]
  · rw [← hplain hno, heq, hplain' (heq ▸ hno)]

/-- A backslash in front of a parenthesis is kept, although one more is put there. -/
theorem ofText_recover_backslash :
    ¬ IsLiteral "a\\(b".toList ∧ ¬ IsLiteral "a (b".toList ∧
      ofText "a\\(b" ≠ ofText "a (b" ∧
      (ofText "a\\(b").toList = quote "a\\\\(b".toList ∧
      "a\\(b".toList = unescape "a\\\\(b".toList := by
  have hs : ¬ IsLiteral "a\\(b".toList := by decide
  have ht : ¬ IsLiteral "a (b".toList := by decide
  have hbody : (ofText "a\\(b").toList = quote "a\\\\(b".toList := by decide
  obtain ⟨hinj, -, hliteral⟩ := ofText_recover hs ht
  exact ⟨hs, ht, fun heq => absurd (hinj heq) (by decide), hbody, hliteral _ hbody⟩

/-! ### Reading literals -/

/-- Reads a literal behind its `q(`: what it stands for, and what is left behind its end. `taken`
says that a backslash stands in front. -/
def readLiteral (taken : Bool) : List Char → Option (List Char × List Char)
  | [] => none
  | c :: rest =>
    if taken then (readLiteral false rest).map fun r => (c :: r.1, r.2)
    else if c = '\\' then readLiteral true rest
    else if c = ')' then some ([], rest)
    else (readLiteral false rest).map fun r => (c :: r.1, r.2)

/-- Reads a text that is a literal. -/
def readText : List Char → Option (List Char × List Char)
  | 'q' :: '(' :: rest => readLiteral false rest
  | _ => none

theorem readText_quote (body : List Char) :
    readText (quote body) = readLiteral false (body ++ [')']) := rfl

/-- Without backslashes of its own an escaped text is read as what it was. -/
theorem readLiteral_escape (h : '\\' ∉ cs) (rest : List Char) :
    readLiteral false (escape cs ++ ')' :: rest) = some (cs, rest) := by
  induction cs with
  | nil => rfl
  | cons c cs ih =>
    obtain ⟨hc, hcs⟩ := List.ne_and_not_mem_of_not_mem_cons h
    have hrest := ih hcs
    cases hparen : isParen c with
    | true =>
      rw [escape_cons_of_paren hparen, List.cons_append, List.cons_append]
      simp [readLiteral, hrest]
    | false =>
      have hclose : c ≠ ')' := by
        rintro rfl
        cases hparen
      rw [escape_cons_of_not_paren hparen, List.cons_append]
      simp [readLiteral, hc.symm, hclose, hrest]

/-- Does the end of a literal stand exactly at the end of the text? -/
def Closes (taken : Bool) (cs : List Char) : Prop :=
  ∃ value, readLiteral taken cs = some (value, [])

theorem closes_taken : Closes true (c :: rest) ↔ Closes false rest := by
  simp [Closes, readLiteral]

theorem closes_backslash : Closes false ('\\' :: rest) ↔ Closes true rest := by
  simp [Closes, readLiteral]

theorem closes_paren : Closes false (')' :: rest) ↔ rest = [] := by
  simp [Closes, readLiteral]

theorem closes_other (hslash : c ≠ '\\') (hclose : c ≠ ')') :
    Closes false (c :: rest) ↔ Closes false rest := by
  simp [Closes, readLiteral, hslash, hclose]

/-- **Reading one character of an escaped value.** A parenthesis that ends a literal must not have
lost its backslash, and what takes the next character is a backslash that has not been taken. -/
theorem closes_escape_cons : Closes taken (escape (c :: cs) ++ [')']) ↔
    (c = ')' → taken = false) ∧ Closes (!taken && c == '\\') (escape cs ++ [')']) := by
  cases hparen : isParen c with
  | true =>
    have hslash : (c == '\\') = false := beq_false_of_ne (ne_backslash_of_isParen hparen)
    rw [escape_cons_of_paren hparen, List.cons_append, List.cons_append, hslash, Bool.and_false]
    cases taken with
    | false => simp [closes_backslash, closes_taken]
    | true =>
      -- The backslash in front of it is taken, so the parenthesis is read as what it is.
      rw [closes_taken]
      rcases isParen_iff.1 hparen with rfl | rfl
      · simp [closes_other]
      · simp [closes_paren]
  | false =>
    have hclose : c ≠ ')' := by
      rintro rfl
      cases hparen
    rw [escape_cons_of_not_paren hparen, List.cons_append]
    cases taken with
    | false =>
      by_cases hslash : c = '\\'
      · simp [hslash, closes_backslash]
      · simp [beq_false_of_ne hslash, hclose, closes_other hslash]
    | true => simp [hclose, closes_taken]

/-- The number of backslashes at the end of a text. -/
def slashes (cs : List Char) : Nat := (cs.rtakeWhile (· == '\\')).length

theorem slashes_concat (cs : List Char) (c : Char) :
    slashes (cs ++ [c]) = if c = '\\' then slashes cs + 1 else 0 := by
  rw [slashes, List.rtakeWhile_concat]
  split_ifs <;> simp_all [slashes]

/-- Does every closing parenthesis stand behind an even number of backslashes? They may begin in
the text in front. -/
def PairsUp (front cs : List Char) : Prop :=
  ∀ before after, cs = before ++ ')' :: after → Even (slashes (front ++ before))

theorem pairsUp_nil (front : List Char) : PairsUp front [] :=
  fun before after heq => by simp at heq

theorem pairsUp_cons {front : List Char} : PairsUp front (c :: rest) ↔
    (c = ')' → Even (slashes front)) ∧ PairsUp (front ++ [c]) rest := by
  constructor
  · intro h
    refine ⟨?_, fun before after heq => ?_⟩
    · rintro rfl
      simpa using h [] rest rfl
    · simpa using h (c :: before) after (by rw [heq, List.cons_append])
  · rintro ⟨hfirst, hrest⟩ before after heq
    cases before with
    | nil =>
      rw [List.append_nil]
      exact hfirst (List.cons.inj heq).1
    | cons x before =>
      obtain ⟨rfl, htail⟩ := List.cons.inj heq
      simpa using hrest before after htail

instance decidablePairsUp : (front cs : List Char) → Decidable (PairsUp front cs)
  | front, [] => .isTrue (pairsUp_nil front)
  | front, c :: rest =>
    have := decidablePairsUp (front ++ [c]) rest
    decidable_of_iff' _ pairsUp_cons

/-- **The end of an escaped text is that of its literal exactly if its backslashes pair up**, in
front of each closing parenthesis and at the end. The induction is on the text, behind a front
that takes the next character if its own backslashes do not pair up. -/
theorem closes_escape_iff {front : List Char} (htaken : taken = false ↔ Even (slashes front)) :
    Closes taken (escape cs ++ [')']) ↔ PairsUp front (cs ++ [')']) := by
  induction cs generalizing front taken with
  | nil =>
    have hend : Closes taken [')'] ↔ taken = false := by
      cases taken <;> simp [Closes, readLiteral]
    have hlast : PairsUp front [')'] ↔ Even (slashes front) := by
      simp [pairsUp_cons, pairsUp_nil]
    exact hend.trans (htaken.trans hlast.symm)
  | cons c cs ih =>
    have hnext : (!taken && c == '\\') = false ↔ Even (slashes (front ++ [c])) := by
      rw [slashes_concat]
      by_cases hslash : c = '\\'
      · rw [if_pos hslash, Nat.even_add_one, ← htaken]
        simp [hslash]
      · simp [hslash]
    rw [closes_escape_cons, List.cons_append, pairsUp_cons, ih hnext, htaken]

/-- **When a wrapped value is read as one literal.** The literal of a value ends exactly at its last
character if and only if every closing parenthesis of the value, and the one put behind it, stands
behind an even number of backslashes. A value without backslashes is read as itself. -/
theorem readText_ofText_iff (wrapped : ofText s ≠ s) :
    ((∃ value, readText (ofText s).toList = some (value, [])) ↔
      ∀ before after, s.toList ++ [')'] = before ++ ')' :: after → Even (slashes before)) ∧
    ('\\' ∉ s.toList → readText (ofText s).toList = some (s.toList, [])) := by
  rw [toList_ofText_of_ne wrapped, readText_quote]
  refine ⟨?_, fun h => readLiteral_escape h []⟩
  have hfront : false = false ↔ Even (slashes []) := by simp [slashes]
  exact closes_escape_iff hfront

/-- Two backslashes in front of a parenthesis, and two at the end. -/
theorem readText_ofText_pairs :
    ofText "a\\\\)\\\\" ≠ "a\\\\)\\\\" ∧
      ∃ value, readText (ofText "a\\\\)\\\\").toList = some (value, []) := by
  have wrapped : ofText "a\\\\)\\\\" ≠ "a\\\\)\\\\" := by decide
  have hpairs : PairsUp [] ("a\\\\)\\\\".toList ++ [')']) := by decide
  exact ⟨wrapped, (readText_ofText_iff wrapped).1.2 hpairs⟩

/-- **A wrapped value need not be read as one literal.** Published with a backslash at its end, a
value takes the parenthesis that ends it, and is open to the end of the text; with a backslash in
front of a parenthesis it ends there, and leaves the rest of the text to be read as something
else. -/
theorem ofText_leaves_open :
    (¬ IsLiteral "a b\\".toList ∧ ofText "a b\\" = "q(a b\\)" ∧
      readText (ofText "a b\\").toList = none) ∧
    (¬ IsLiteral "a\\)b".toList ∧ ofText "a\\)b" = "q(a\\\\)b)" ∧
      readText (ofText "a\\)b").toList = some ("a\\".toList, "b)".toList)) ∧
    ¬ ∀ s, ¬ IsLiteral s.toList → ofText s ≠ s →
      ∃ value, readText (ofText s).toList = some (value, []) := by
  refine ⟨by decide, by decide, fun h => ?_⟩
  obtain ⟨value, hvalue⟩ := h "a b\\" (by decide) (by decide)
  have hopen : readText (ofText "a b\\").toList = none := by decide
  rw [hopen] at hvalue
  cases hvalue

end Normal
end ClusterSync
