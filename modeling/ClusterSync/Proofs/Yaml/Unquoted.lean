/-
# Texts without quotes are read as they are written

A plain text is one line. What ends it is the line end behind a value, with the margin of the
next line, which stands further out (`readPlain_value`), or the colon behind a key
(`readPlain_key`); within it there is no colon with a gap behind it and no number sign with
one in front.

A literal keeps its lines. Its header tells the indentation where the first line does not show
it, and what becomes of the line ends behind the last line; so what has been read and what the
end keeps of it is the text (`readBlockScalar?_literal`).
-/

import ClusterSync.Proofs.Yaml.Quoted
import ClusterSync.Yaml.Marks

namespace ClusterSync
namespace Yaml

/-! ### Plain texts -/

/-- A text that needs no quotes, as far as it stands behind what has been read. `spaced` says
that a space stands right in front of it. -/
structure KeptByPlain (spaced : Bool) (cs : List Char) : Prop where
  printed : ∀ c ∈ cs, isPrinted c = true ∧ isBreak c = false
  noColon : hasOpenColon cs = false
  noComment : hasPair (fun c => atBlank [c]) (· == '#') cs = false
  last : ∀ c ∈ cs.getLast?, isBlankSpace c = false
  /-- A space is followed by a word. -/
  ofSpaced : spaced = true → ∃ c ∈ cs.head?, c ≠ '#'

theorem KeptByPlain.tail {spaced : Bool} {c : Char} {cs : List Char}
    (h : KeptByPlain spaced (c :: cs)) : KeptByPlain (isSpace c) cs where
  printed d hd := h.printed d (List.mem_cons_of_mem _ hd)
  noColon := by
    have := h.noColon
    rw [hasOpenColon, Bool.or_eq_false_iff] at this
    exact this.2
  noComment := (hasPair_cons h.noComment).2
  last d hd := h.last d (by
    obtain _ | ⟨e, cs⟩ := cs
    · cases hd
    · exact hd)
  ofSpaced hspace := by
    obtain _ | ⟨d, cs⟩ := cs
    · have hblank := isBlankSpace_of_isSpace (h.printed c (List.mem_cons_self ..)).1 hspace
      simp [h.last c rfl] at hblank
    · have hgap : atBlank [c] = true := by simp [atBlank, atGap, hspace]
      exact ⟨d, rfl, by simpa using (hasPair_cons h.noComment).1 hgap d rfl⟩

/-- What may be written without quotes is kept without them. -/
theorem keptByPlain_of_allowsPlain {cs : List Char} (h : allowsPlain cs = true) :
    KeptByPlain false cs := by
  simp only [allowsPlain, hasMarks, Bool.and_eq_true, Bool.not_eq_true', Bool.or_eq_false_iff,
    List.all_eq_true] at h
  obtain ⟨⟨⟨hprinted, -⟩, hlast⟩, ⟨-, hcolon⟩, hcomment⟩ := h
  refine ⟨hprinted, hcolon, hcomment, fun c hc => ?_, fun hf => by cases hf⟩
  rw [Option.mem_def.1 hc] at hlast
  exact hlast

variable {done rest : List Char} {p : Place} {indent : Nat}

/-- No character of the text is a colon that ends it. -/
theorem KeptByPlain.endsPlain_eq {spaced : Bool} {c : Char} {cs : List Char}
    (h : KeptByPlain spaced (c :: cs)) : endsPlain false (c :: (cs ++ rest)) = false := by
  by_cases hc : c = ':'
  · subst hc
    have hcolon := h.noColon
    rw [hasOpenColon, Bool.or_eq_false_iff] at hcolon
    have hblank : atBlank cs = false := by simpa using hcolon.1
    obtain _ | ⟨d, cs⟩ := cs
    · cases hblank
    · simp only [atBlank, Bool.or_eq_false_iff] at hblank
      exact hblank.1
  · unfold endsPlain
    split
    · next heq => exact absurd (List.cons.inj heq).1 hc
    · simp
    · next heq => cases heq

/-- Outside flow collections any colon may stand in a text. -/
theorem badColon_block (cs : List Char) : badColon false cs = false := by
  unfold badColon
  split <;> simp

/-- One character of a plain text is read: white space is held back, anything else is taken with
what has been held back in front of it. -/
theorem readPlain_cons {s cs : List Char} {c : Char} (h : KeptByPlain (!s.isEmpty) (c :: cs))
    (hmargin : s ≠ [] → indent ≤ p.column)
    (hmark : p.column = 0 → atDocumentMark (c :: (cs ++ rest)) = false) :
    readPlain false indent done { spaces := s } p (c :: (cs ++ rest)) =
      if isSpace c then readPlain false indent done { spaces := c :: s } p.move (cs ++ rest)
      else readPlain false indent (c :: s ++ done) {} p.move (cs ++ rest) := by
  obtain ⟨hprinted, hbreak⟩ := h.printed c (List.mem_cons_self ..)
  have hreturn : c ≠ '\r' := isPrinted_ne hprinted (by decide)
  have hopen :
      (({ spaces := s } : Gap).isOpen && (!false && decide (p.column < indent) || c == '#') ||
        decide (p.column = 0) && atDocumentMark (c :: (cs ++ rest))) = false := by
    rw [Bool.or_eq_false_iff]
    constructor
    · cases hgap : ({ spaces := s } : Gap).isOpen with
      | false => rfl
      | true =>
        have hs : s.isEmpty = false := by simpa [Gap.isOpen] using hgap
        obtain ⟨d, hd, hne⟩ := h.ofSpaced (by simp [hs])
        obtain rfl : c = d := by simpa using hd
        have hindent := hmargin (by simpa using hs)
        simp [hne, hindent]
    · by_cases hcolumn : p.column = 0
      · rw [hmark hcolumn, Bool.and_false]
      · simp [hcolumn]
  rw [readPlain.eq_3 _ _ _ _ _ _ _ fun _ h _ => hreturn h]
  simp only [hopen, badColon_block, h.endsPlain_eq, hbreak, Bool.false_eq_true, if_false,
    Bool.false_and]
  cases isSpace c <;> simp [Gap.addSpace, Gap.reversed]

/-- A plain text is read up to its end. `s` is the white space held back in front of it. -/
theorem readPlain_append {s cs : List Char} (h : KeptByPlain (!s.isEmpty) cs)
    (hindent : indent ≤ p.column + 1) (hmargin : s ≠ [] → indent ≤ p.column)
    (hmark : p.column = 0 → atDocumentMark (cs ++ rest) = false) :
    readPlain false indent done { spaces := s } p (cs ++ rest) =
      readPlain false indent (cs.reverse ++ s ++ done) {} (p.move cs.length) rest := by
  induction cs generalizing s done p with
  | nil =>
    have hs : s = [] := by
      by_contra hne
      obtain ⟨c, hc, -⟩ := h.ofSpaced (by simpa using hne)
      cases hc
    subst hs
    rfl
  | cons c cs ih =>
    have hnext (s : List Char) (hs : (!s.isEmpty) = isSpace c) (done : List Char) :
        readPlain false indent done { spaces := s } p.move (cs ++ rest) = _ :=
      ih (hs ▸ h.tail) (by simp; omega)
        (fun _ => by simpa using hindent) (fun h0 => by simp at h0)
    rw [List.cons_append, readPlain_cons h hmargin hmark]
    cases hspace : isSpace c with
    | true =>
      rw [if_pos rfl, hnext (c :: s) (by simp [hspace]), Place.move_move]
      simp [Nat.add_comm]
    | false =>
      rw [if_neg (by decide), hnext [] (by simp [hspace]), Place.move_move]
      simp [Nat.add_comm]

/-- A character that the next token begins with: no white space, no comment and no mark of the
byte order. -/
def isVisible (c : Char) : Bool := !isSpace c && !isBreak c && c != '#' && c != '\uFEFF'

theorem isVisible_iff {c : Char} : isVisible c = true ↔
    ((c == ' ') = false ∧ (c == '\t') = false) ∧ isBreak c = false ∧ c ≠ '\r' ∧ c ≠ '#' ∧
      c ≠ '\uFEFF' := by
  simp only [isVisible, isSpace, Bool.and_eq_true, Bool.not_eq_true', Bool.or_eq_false_iff,
    bne_iff_ne]
  constructor
  · rintro ⟨⟨⟨hspace, hbreak⟩, hcomment⟩, hmark⟩
    refine ⟨hspace, hbreak, ?_, hcomment, hmark⟩
    rintro rfl
    simp [isBreak] at hbreak
  · rintro ⟨hspace, hbreak, -, hcomment, hmark⟩
    exact ⟨⟨⟨hspace, hbreak⟩, hcomment⟩, hmark⟩

/-- The text from the next token on, or none. -/
def IsAhead (cs : List Char) : Prop := ∀ c ∈ cs.head?, isVisible c = true

/-- **A plain text behind a colon or a dash is read back**, with the line end behind it and the
margin of the next line, which stands further out. -/
theorem readPlain_value {cs tail : List Char} {k : Nat} (h : KeptByPlain false cs)
    (hindent : indent ≤ p.column) (hp : 0 < p.column) (hk : k < indent) (htail : IsAhead tail) :
    readPlain false indent [] {} p (cs ++ '\n' :: (spaces k ++ tail)) =
      some ⟨cs, ⟨tail, (p.move cs.length).nextLine.move k⟩, true⟩ := by
  have hmargin (n : Nat) (q : Place) (g : Gap) (hg : g.broken = true) :
      readPlain false indent cs.reverse g q (spaces n ++ tail) =
        readPlain false indent cs.reverse g (q.move n) tail := by
    induction n generalizing q with
    | zero => rfl
    | succ n ih =>
      rw [spaces, List.replicate_succ, List.cons_append,
        readPlain.eq_3 _ _ _ _ _ _ _ fun _ h _ => absurd h (by decide), if_pos (by decide),
        if_neg (by simp), Gap.addSpace_of_broken hg, ← spaces, ih, Place.move_move, Nat.add_comm]
  have hread (rest : List Char) : readPlain false indent [] {} p (cs ++ rest) =
      readPlain false indent (cs.reverse ++ [] ++ []) {} (p.move cs.length) rest :=
    readPlain_append (s := []) h (by omega) (fun _ => hindent) fun h0 => by omega
  rw [hread, readPlain.eq_3 _ _ _ _ _ _ _ fun _ h _ => absurd h (by decide), if_neg (by decide),
    if_pos (by decide), List.append_nil, List.append_nil, hmargin _ _ _ rfl]
  obtain _ | ⟨c, tail⟩ := tail
  · rw [readPlain]
    simp [Gap.addBreak]
  · obtain ⟨hspace, hbreak, hreturn, -⟩ := isVisible_iff.1 (htail c rfl)
    rw [readPlain.eq_3 _ _ _ _ _ _ _ fun _ h _ => hreturn h, isSpace, hspace.1, hspace.2,
      if_neg (by decide), hbreak, if_neg (by decide),
        if_pos (by simp [Gap.addBreak, Gap.isOpen, Place.nextLine, hk])]
    simp [Gap.addBreak]

/-- **A plain text in front of a colon is read back.** -/
theorem readPlain_key {cs tail : List Char} (h : KeptByPlain false cs)
    (hindent : indent ≤ p.column + 1) (htail : atGap tail = true)
    (hmark : p.column = 0 → atDocumentMark (cs ++ ':' :: tail) = false) (hne : cs ≠ []) :
    readPlain false indent [] {} p (cs ++ ':' :: tail) =
      some ⟨cs, ⟨':' :: tail, p.move cs.length⟩, false⟩ := by
  have hread : readPlain false indent [] {} p (cs ++ ':' :: tail) =
      readPlain false indent (cs.reverse ++ [] ++ []) {} (p.move cs.length) (':' :: tail) :=
    readPlain_append (s := []) h hindent (fun h => absurd rfl h) hmark
  rw [hread, readPlain.eq_3 _ _ _ _ _ _ _ fun _ h _ => absurd h (by decide), if_neg (by decide),
    if_neg (by decide), if_neg (by simp [Gap.isOpen, hne]),
    badColon_block, if_neg (by decide), if_pos (by simpa [endsPlain] using htail)]
  simp

/-! ### Literals -/

/-- A literal that has been read up to some place: `n` is the column of its lines, and `fresh`
says that a line has just ended. -/
structure Block.Holds (b : Block) (n : Nat) (fresh : Bool) (before : List Char) : Prop where
  literal : b.literal = true
  inLine : b.inLine = !fresh
  text : b.empties ++ b.ended ++ b.done = before.reverse
  breaks : ∀ c ∈ b.empties ++ b.ended, isBreak c = true
  /-- Within a line nothing has ended. -/
  within : fresh = false → b.empties = [] ∧ b.ended = []
  /-- Before the first line there are empty ones only. -/
  begun : fresh = true → b.ended = [] → b.done = []
  /-- The column is known, or shows at the first line. -/
  indent : b.indent = some n ∨ b.indent = none ∧ before = [] ∧ b.deepest = 0 ∧ b.least ≤ n

variable {b : Block} {n : Nat} {before : List Char} {c : Char}

theorem readBlock_cons (hreturn : c ≠ '\r') : readBlock b p (c :: rest) =
    if b.inLine then
      if isBreak c then readBlock { b with inLine := false, ended := [keptBreak c] } p.nextLine rest
      else readBlock { b with done := c :: b.done } p.move rest
    else if b.inMargin p.column && c == ' ' then readBlock b p.move rest
    else if b.inMargin p.column && c == '\t' then none
    else if isBreak c then
      readBlock { b with empties := keptBreak c :: b.empties,
                         deepest := max b.deepest p.column } p.nextLine rest
    else if (b.settle p.column).indent = some p.column then
      readBlock ((b.settle p.column).beginLine c) p.move rest
    else some ⟨(b.settle p.column).finish, ⟨c :: rest, p⟩, false⟩ :=
  readBlock.eq_3 _ _ _ _ fun _ h _ => hreturn h

/-- The margin of a line is passed over. -/
theorem readBlock_margin (hline : b.inLine = false) (hindent : ∀ m ∈ b.indent, p.column + n ≤ m) :
    readBlock b p (spaces n ++ rest) = readBlock b (p.move n) rest := by
  induction n generalizing p with
  | zero => rfl
  | succ n ih =>
    have hmargin : b.inMargin p.column = true := by
      cases hb : b.indent with
      | none => simp [Block.inMargin, hb]
      | some m =>
        have := hindent m hb
        simp [Block.inMargin, hb]
        omega
    rw [spaces, List.replicate_succ, List.cons_append, readBlock_cons (by decide), hline,
      if_neg (by decide), hmargin, if_pos (by decide), ← spaces,
      ih fun m hm => by have := hindent m hm; simp; omega, Place.move_move, Nat.add_comm]

namespace Block.Holds

/-- If the column is known, it is that of the lines. -/
theorem indent_eq {fresh : Bool} (h : b.Holds n fresh before) (hb : b.indent ≠ none) :
    b.indent = some n := by
  rcases h.indent with hn | ⟨hnone, -⟩
  · exact hn
  · exact absurd hnone hb

/-- A character at the beginning of a line. -/
theorem beginLine (h : b.Holds n true before) (hbreak : isBreak c = false)
    (hprinted : isPrinted c = true) (hfirst : b.indent = none → c ≠ ' ') (hp : p.column = n) :
    ∃ b', (∀ rest, readBlock b p (c :: rest) = readBlock b' p.move rest) ∧
      b'.Holds n false (before ++ [c]) ∧ b'.indent = some n ∧ b'.chomping = b.chomping := by
  have hreturn : c ≠ '\r' := isPrinted_ne hprinted (by decide)
  have htab : c ≠ '\t' := isPrinted_ne hprinted (by decide)
  have hinLine : b.inLine = false := h.inLine
  have hmargin : (b.inMargin p.column && c == ' ') = false := by
    rcases h.indent with hn | ⟨hnone, -⟩
    · simp [Block.inMargin, hn, hp]
    · simp [hfirst hnone]
  have hsettled : (b.settle p.column).indent = some p.column := by
    rcases h.indent with hn | ⟨hnone, -, hdeepest, hleast⟩
    · simp [Block.settle, hn, hp]
    · simp only [Block.settle, hnone, hdeepest, hp]
      congr 1
      omega
  have hsame : (b.settle p.column).literal = b.literal ∧ (b.settle p.column).done = b.done ∧
      (b.settle p.column).ended = b.ended ∧ (b.settle p.column).empties = b.empties ∧
      (b.settle p.column).chomping = b.chomping := by
    unfold Block.settle
    split <;> exact ⟨rfl, rfl, rfl, rfl, rfl⟩
  obtain ⟨hliteral, hdone, hended, hempties, hchomping⟩ := hsame
  have hindent : ((b.settle p.column).beginLine c).indent = some n := hp ▸ hsettled
  refine ⟨(b.settle p.column).beginLine c, fun rest => ?_, ?_, hindent, hchomping⟩
  · rw [readBlock_cons hreturn, hinLine, if_neg (by decide), hmargin, if_neg (by decide),
      beq_eq_false_iff_ne.2 htab, Bool.and_false, if_neg (by decide), hbreak, if_neg (by decide),
      if_pos hsettled]
  · exact {
      literal := hliteral.trans h.literal
      inLine := rfl
      text := by
        have htext := h.text
        simp [Block.beginLine, hliteral, h.literal, hdone, hended, hempties, ← htext]
      breaks := by simp [Block.beginLine]
      within := fun _ => ⟨rfl, rfl⟩
      begun := fun hf => absurd hf (by decide)
      indent := .inl hindent }

/-- A character within a line. -/
theorem push (h : b.Holds n false before) (hindent : b.indent = some n) :
    ({ b with done := c :: b.done } : Block).Holds n false (before ++ [c]) where
  literal := h.literal
  inLine := h.inLine
  text := by
    obtain ⟨hempties, hended⟩ := h.within rfl
    have := h.text
    simp_all
  breaks := h.breaks
  within := h.within
  begun hf := by cases hf
  indent := .inl hindent

/-- The end of a line. -/
theorem endLine (h : b.Holds n false before) (hc : isBreak c = true) (hindent : b.indent = some n) :
    ({ b with inLine := false, ended := [c] } : Block).Holds n true (before ++ [c]) where
  literal := h.literal
  inLine := rfl
  text := by
    obtain ⟨hempties, hended⟩ := h.within rfl
    have := h.text
    simp_all
  breaks := by
    obtain ⟨hempties, -⟩ := h.within rfl
    simp [hempties, hc]
  within hf := by cases hf
  begun _ hf := by cases hf
  indent := .inl hindent

/-- The end of an empty line. -/
theorem endEmpty (h : b.Holds n true before) (hc : isBreak c = true) (hindent : b.indent = some n)
    (deepest : Nat) :
    ({ b with empties := c :: b.empties, deepest } : Block).Holds n true (before ++ [c]) where
  literal := h.literal
  inLine := h.inLine
  text := by
    have := h.text
    simp_all
  breaks d hd := by
    rcases List.mem_cons.1 hd with rfl | hd
    · exact hc
    · exact h.breaks d hd
  within hf := by cases hf
  begun := h.begun
  indent := .inl hindent

end Block.Holds

/-- A character of a literal, as it is written. -/
def literalChar (n : Nat) (fresh : Bool) (c : Char) : List Char :=
  (if fresh && !isBreak c then spaces n else []) ++ [c]

theorem literalChars_cons (n : Nat) (fresh : Bool) (c : Char) (cs : List Char) :
    literalChars n fresh (c :: cs) = literalChar n fresh c ++ literalChars n (isBreak c) cs := by
  cases hbreak : isBreak c <;> simp [literalChars, literalChar, hbreak]

/-- One character of a literal is read: an empty line or the end of a line is noted, a line is
begun or goes on. -/
theorem Block.Holds.step {fresh : Bool} (h : b.Holds n fresh before) (hc : isPrinted c = true)
    (hp : fresh = true → p.column = 0)
    (hfirst : b.indent = none → fresh = true ∧ c ≠ ' ' ∧ isBreak c = false) :
    ∃ b', (∀ rest, readBlock b p (literalChar n fresh c ++ rest) =
        readBlock b' (p.after (literalChar n fresh c)) rest) ∧
      b'.Holds n (isBreak c) (before ++ [c]) ∧ b'.indent = some n ∧ b'.chomping = b.chomping := by
  have hreturn : c ≠ '\r' := isPrinted_ne hc (by decide)
  cases hbreak : isBreak c with
  | true =>
    have hkept := keptBreak_eq_self hbreak hc
    have hindent : b.indent = some n := h.indent_eq fun hnone => by
      simp [hbreak] at hfirst
      exact hfirst hnone
    simp only [literalChar, hbreak, Bool.not_true, Bool.and_false, Bool.false_eq_true, if_false,
      List.nil_append, Place.after_cons, if_true, Place.after_nil]
    cases fresh with
    | true =>
      have hline : b.inLine = false := h.inLine
      have hspace := isSpace_of_isBreak hbreak
      simp only [isSpace, Bool.or_eq_false_iff] at hspace
      refine ⟨_, fun rest => ?_, h.endEmpty hbreak hindent (max b.deepest p.column), hindent, rfl⟩
      rw [List.singleton_append, readBlock_cons hreturn, if_neg (by simp [hline]), hspace.1,
        Bool.and_false, if_neg (by decide), hspace.2, Bool.and_false, if_neg (by decide),
        if_pos hbreak, hkept]
    | false =>
      have hline : b.inLine = true := h.inLine
      refine ⟨_, fun rest => ?_, h.endLine hbreak hindent, hindent, rfl⟩
      rw [List.singleton_append, readBlock_cons hreturn, if_pos hline, if_pos hbreak, hkept]
  | false =>
    simp only [literalChar, hbreak, Bool.not_false, Bool.and_true]
    cases fresh with
    | true =>
      have hline : b.inLine = false := h.inLine
      have hmargin : ∀ m ∈ b.indent, p.column + n ≤ m := fun m hm => by
        have hindent := h.indent_eq (by simp [Option.mem_def.1 hm])
        simp_all
      obtain ⟨b', hread, hholds, hindent, hchomping⟩ :=
        h.beginLine hbreak hc (fun hnone => (hfirst hnone).2.1)
          (by simp [hp rfl] : (p.move n).column = n)
      refine ⟨b', fun rest => ?_, hholds, hindent, hchomping⟩
      rw [if_pos rfl, Place.after_append, Place.after_spaces, List.append_assoc,
        readBlock_margin hline hmargin, List.singleton_append, hread, Place.after_cons, hbreak]
      rfl
    | false =>
      have hline : b.inLine = true := h.inLine
      have hindent : b.indent = some n := h.indent_eq fun hnone => by cases (hfirst hnone).1
      refine ⟨_, fun rest => ?_, h.push hindent, hindent, rfl⟩
      rw [if_neg (by decide), List.nil_append, List.singleton_append, readBlock_cons hreturn,
        if_pos hline, if_neg (by simp [hbreak]), Place.after_cons, hbreak]
      rfl

theorem Place.column_after_literalChar (p : Place) (n : Nat) (fresh : Bool)
    (hbreak : isBreak c = true) : (p.after (literalChar n fresh c)).column = 0 := by
  rw [literalChar, Place.after_append, Place.after_cons, if_pos hbreak]
  rfl

/-- The line feed that is put behind a last line which is not ended. -/
def lastBreak (fresh : Bool) : List Char → List Char
  | [] => if fresh then [] else ['\n']
  | c :: cs => lastBreak (isBreak c) cs

theorem lastBreak_concat (fresh : Bool) (cs : List Char) (c : Char) :
    lastBreak fresh (cs ++ [c]) = if isBreak c then [] else ['\n'] := by
  induction cs generalizing fresh with
  | nil => rfl
  | cons d cs ih => exact ih _

/-- The lines of a literal are read one after another. -/
theorem readBlock_literalChars {fresh : Bool} {cs : List Char} (h : b.Holds n fresh before)
    (hprinted : ∀ c ∈ cs, isPrinted c = true) (hp : fresh = true → p.column = 0)
    (hfirst : b.indent = none → fresh = true ∧ ∃ c ∈ cs.head?, c ≠ ' ' ∧ isBreak c = false) :
    ∃ b', (∀ rest, readBlock b p (literalChars n fresh cs ++ rest) =
        readBlock b' (p.after (literalChars n fresh cs)) rest) ∧
      (p.after (literalChars n fresh cs)).column = 0 ∧
      b'.Holds n true (before ++ cs ++ lastBreak fresh cs) ∧ b'.indent = some n ∧
      b'.chomping = b.chomping := by
  induction cs generalizing b before fresh p with
  | nil =>
    have hindent : b.indent = some n := h.indent_eq fun hnone => by
      obtain ⟨-, c, hc, -⟩ := hfirst hnone
      cases hc
    cases fresh with
    | true =>
      refine ⟨b, fun _ => rfl, hp rfl, ?_, hindent, rfl⟩
      simpa [lastBreak] using h
    | false =>
      have hline : b.inLine = true := h.inLine
      refine ⟨{ b with inLine := false, ended := ['\n'] }, fun rest => ?_, rfl, ?_, hindent, rfl⟩
      · rw [literalChars, if_neg (by decide), List.singleton_append, readBlock_cons (by decide),
          if_pos hline, if_pos (by decide)]
        rfl
      · simpa [lastBreak] using h.endLine rfl hindent
  | cons c cs ih =>
    obtain ⟨b', hread, hholds, hindent, hchomping⟩ :=
      h.step (hprinted c (List.mem_cons_self ..)) hp fun hnone => by
        obtain ⟨hfresh, d, hd, hd'⟩ := hfirst hnone
        obtain rfl : c = d := by simpa using hd
        exact ⟨hfresh, hd'⟩
    obtain ⟨b'', hreads, hcolumn, hholds', hindent', hchomping'⟩ :=
      ih hholds (fun d hd => hprinted d (List.mem_cons_of_mem _ hd))
        (fun hbreak => p.column_after_literalChar n fresh hbreak)
        (fun hnone => by simp [hindent] at hnone)
    rw [literalChars_cons, Place.after_append]
    refine ⟨b'', fun rest => ?_, hcolumn, ?_, hindent', hchomping'.trans hchomping⟩
    · rw [List.append_assoc, hread, hreads]
    · simpa [lastBreak] using hholds'

/-- What ends a literal is the next token, further out, or the end of the text. -/
theorem readBlock_end {k : Nat} {tail : List Char} (hline : b.inLine = false)
    (hindent : b.indent = some n) (hp : p.column = 0) (hk : k < n) (htail : IsAhead tail) :
    readBlock b p (spaces k ++ tail) = some ⟨b.finish, ⟨tail, p.move k⟩, false⟩ := by
  rw [readBlock_margin hline fun m hm => by simp_all; omega]
  obtain _ | ⟨c, tail⟩ := tail
  · rw [readBlock]
  · obtain ⟨hspace, hbreak, hreturn, -⟩ := isVisible_iff.1 (htail c rfl)
    have hsettle : b.settle (p.move k).column = b := by simp [Block.settle, hindent]
    have hother : b.indent ≠ some (p.move k).column := by
      rw [hindent, Place.column_move, hp]
      simp
      omega
    rw [readBlock_cons hreturn, hline, if_neg (by decide), hspace.1, Bool.and_false,
      if_neg (by decide), hspace.2, Bool.and_false, if_neg (by decide), hbreak,
      if_neg (by decide), hsettle, if_neg hother]

/-- The chomping that keeps the end of a text, whose last character comes first. -/
def chompingOf : List Char → Chomping
  | [] => .strip
  | [c] => if isBreak c then .keep else .strip
  | c :: d :: _ => if !isBreak c then .strip else if isBreak d then .keep else .clip

/-- Behind a character of a line there is one line end and no empty line. -/
theorem Block.Holds.ended_eq {c d : Char} {more : List Char} (h : b.Holds n true before)
    (hd : isBreak d = false) (hbefore : before.reverse = c :: d :: more) :
    b.ended = [c] ∧ b.done = d :: more := by
  have htext := h.text
  have hbreaks := h.breaks
  have hbegun := h.begun rfl
  rw [hbefore] at htext
  rcases hempties : b.empties with _ | ⟨e, _ | ⟨e', es⟩⟩
  · rw [hempties] at htext hbreaks
    rcases hends : b.ended with _ | ⟨f, _ | ⟨f', fs⟩⟩
    · rw [hends, hbegun hends] at htext
      cases htext
    · rw [hends] at htext
      simp_all
    · rw [hends] at htext hbreaks
      simp_all
  · rw [hempties] at htext hbreaks
    rcases hends : b.ended with _ | ⟨f, fs⟩
    · rw [hends, hbegun hends] at htext
      cases htext
    · rw [hends] at htext hbreaks
      simp_all
  · rw [hempties] at htext hbreaks
    simp_all

/-- **What a literal keeps of its end is the text.** -/
theorem Block.Holds.finish_eq {cs : List Char} (h : b.Holds n true (cs ++ lastBreak true cs))
    (hne : cs ≠ []) (hchomping : b.chomping = chompingOf cs.reverse) : b.finish = cs := by
  obtain ⟨c, more, hcs⟩ := List.exists_cons_of_ne_nil (List.reverse_ne_nil_iff.2 hne)
  have hreverse : cs = (c :: more).reverse := by rw [← hcs, List.reverse_reverse]
  have hlast : lastBreak true cs = if isBreak c then [] else ['\n'] := by
    rw [hreverse, List.reverse_cons, lastBreak_concat]
  rw [hlast] at h
  rw [Block.finish, hchomping, hcs]
  cases hbreak : isBreak c with
  | false =>
    rw [hbreak] at h
    have hbefore : (cs ++ ['\n']).reverse = '\n' :: c :: more := by simp [hcs]
    obtain ⟨-, hdone⟩ := h.ended_eq hbreak hbefore
    have hstrip : chompingOf (c :: more) = .strip := by
      cases more <;> simp [chompingOf, hbreak]
    rw [hstrip, hreverse, hdone]
    rfl
  | true =>
    simp only [hbreak, if_true, List.append_nil] at h
    have htext := h.text
    rw [hcs] at htext
    obtain _ | ⟨d, more⟩ := more
    · simp only [chompingOf, hbreak, if_true]
      rw [hreverse, ← htext]
    · cases hd : isBreak d with
      | true =>
        simp only [chompingOf, hbreak, hd, Bool.not_true, Bool.false_eq_true, if_false, if_true]
        rw [hreverse, ← htext]
      | false =>
        obtain ⟨hends, hdone⟩ := h.ended_eq hd hcs
        simp only [chompingOf, hbreak, hd, Bool.not_true, Bool.false_eq_true, if_false]
        rw [hreverse, hends, hdone]
        rfl

/-- The mark of a chomping in the header of a literal. -/
def chompChars : Chomping → List Char
  | .strip => ['-']
  | .clip => []
  | .keep => ['+']

theorem literalHints_eq (cs : List Char) : literalHints cs =
    (if cs.head?.any (fun c => c == ' ' || isBreak c) then ['2'] else []) ++
      chompChars (chompingOf cs.reverse) := by
  rw [literalHints]
  congr 1
  rcases cs.reverse with _ | ⟨c, _ | ⟨d, more⟩⟩
  · rfl
  · simp only [chompingOf]
    split_ifs <;> rfl
  · simp only [chompingOf]
    split_ifs <;> rfl

/-- The header of a literal is read up to the first line. -/
theorem readBlockHeader?_hints (hinted : Bool) (chomping : Chomping) (rest : List Char)
    (p : Place) :
    ∃ q : Place, q.column = 0 ∧ readBlockHeader?
        ⟨(if hinted then ['2'] else []) ++ chompChars chomping ++ '\n' :: rest, p⟩ =
      some (chomping, if hinted then some 2 else none, ⟨rest, q⟩) := by
  cases hinted <;> cases chomping <;> exact ⟨_, rfl, rfl⟩

/-- **A literal is read back**, with the line ends behind it and the margin of the next line,
which stands further out. -/
theorem readBlockScalar?_literal {cs tail : List Char} {m k : Nat}
    (hprinted : ∀ c ∈ cs, isPrinted c = true) (hne : cs ≠ []) (hk : k ≤ m)
    (htail : IsAhead tail) (p : Place) :
    ∃ q : Place, q.column = k ∧ readBlockScalar? true (some m)
        ⟨literalHints cs ++ '\n' :: (literalChars (m + 2) true cs ++ (spaces k ++ tail)), p⟩ =
      some ⟨cs, ⟨tail, q⟩, false⟩ := by
  rw [literalHints_eq]
  generalize hhinted : cs.head?.any (fun c => c == ' ' || isBreak c) = hinted
  obtain ⟨q, hq, hheader⟩ := readBlockHeader?_hints hinted (chompingOf cs.reverse)
    (literalChars (m + 2) true cs ++ (spaces k ++ tail)) p
  simp only [readBlockScalar?, hheader]
  generalize hb : ({
    literal := true, chomping := chompingOf cs.reverse
    indent := Option.map (fun x => (some m).getD 0 + x) (if hinted = true then some 2 else none)
    least := max 1 (m + 1) } : Block) = b
  have hindent : b.indent = if hinted then some (m + 2) else none := by
    rw [← hb]
    cases hinted <;> rfl
  have hholds : b.Holds (m + 2) true [] := by
    subst hb
    refine {
      literal := rfl
      inLine := rfl
      text := rfl
      breaks := by simp
      within := fun hf => absurd hf (by decide)
      begun := fun _ _ => rfl
      indent := ?_ }
    cases hinted with
    | true => exact .inl rfl
    | false => exact .inr ⟨rfl, rfl, rfl, by simp⟩
  have hfirst : b.indent = none → true = true ∧ ∃ c ∈ cs.head?, c ≠ ' ' ∧ isBreak c = false := by
    intro hnone
    rw [hindent] at hnone
    obtain ⟨c, more, rfl⟩ := List.exists_cons_of_ne_nil hne
    refine ⟨rfl, c, rfl, ?_⟩
    cases hinted with
    | true => cases hnone
    | false => simpa using hhinted
  obtain ⟨b', hread, hcolumn, hholds', hindent', hchomping⟩ :=
    readBlock_literalChars hholds hprinted (fun _ => hq) hfirst
  have hfinish : b'.finish = cs := hholds'.finish_eq hne (by rw [hchomping, ← hb]; rfl)
  have hline : b'.inLine = false := hholds'.inLine
  refine ⟨(q.after (literalChars (m + 2) true cs)).move k, by simp [hcolumn], ?_⟩
  exact (hread (spaces k ++ tail)).trans
    ((readBlock_end hline hindent' hcolumn (by omega) htail).trans (by rw [hfinish]))

end Yaml
end ClusterSync
