/-
# Texts in quotes are read as they are written

A reader of quotes holds back the white space that it has not yet seen a word behind. What it
has read is the text behind it, held back and kept together (`Gap.reversed`).

Between double quotes every character is written for itself or as an escape, so no line ends
there: each character is read back on its own (`readDouble_doubleChar`), and so is the text
(`readDouble_text`). Between single quotes only the line and paragraph separators end lines.
They stand for themselves, and the spaces that move the next line in do not count
(`readSingle_text`).
-/

import ClusterSync.Proofs.Yaml.Numbers

namespace ClusterSync
namespace Yaml

/-! ### Places -/

namespace Place

/-- The place behind characters, none of which is a carriage return. -/
def after (p : Place) (cs : List Char) : Place :=
  cs.foldl (fun p c => if isBreak c then p.nextLine else p.move) p

@[simp] theorem after_nil (p : Place) : p.after [] = p := rfl

theorem after_cons (p : Place) (c : Char) (cs : List Char) :
    p.after (c :: cs) = (if isBreak c then p.nextLine else p.move).after cs := rfl

theorem after_append (p : Place) (cs ds : List Char) :
    p.after (cs ++ ds) = (p.after cs).after ds := List.foldl_append

@[simp] theorem column_move (p : Place) (n : Nat) : (p.move n).column = p.column + n := rfl

@[simp] theorem line_move (p : Place) (n : Nat) : (p.move n).line = p.line := rfl

@[simp] theorem index_move (p : Place) (n : Nat) : (p.move n).index = p.index + n := rfl

theorem move_move (p : Place) (m n : Nat) : (p.move m).move n = p.move (m + n) := by
  simp [move, Nat.add_assoc]

/-- Within a line places are counted. -/
theorem after_eq_move {p : Place} {cs : List Char} (h : ∀ c ∈ cs, isBreak c = false) :
    p.after cs = p.move cs.length := by
  induction cs generalizing p with
  | nil => rfl
  | cons c cs ih =>
    rw [after_cons, h c (List.mem_cons_self ..), ih fun x hx => h x (List.mem_cons_of_mem _ hx)]
    simp [move_move, Nat.add_comm]

theorem after_spaces (p : Place) (n : Nat) : p.after (spaces n) = p.move n := by
  have h : ∀ c ∈ spaces n, isBreak c = false := fun c hc => by
    rw [(List.mem_replicate.1 hc).2]
    rfl
  rw [after_eq_move h, spaces, List.length_replicate]

theorem after_margin (p : Place) (fresh : Bool) (n : Nat) :
    p.after (if fresh then spaces n else []) = p.move (if fresh then n else 0) := by
  cases fresh with
  | false => rfl
  | true => exact after_spaces p n

/-- Characters do not lead back to an earlier line. -/
theorem line_le_after (p : Place) (cs : List Char) : p.line ≤ (p.after cs).line := by
  induction cs generalizing p with
  | nil => exact le_refl _
  | cons c cs ih =>
    rw [after_cons]
    refine le_trans ?_ (ih _)
    split_ifs
    · exact Nat.le_succ _
    · exact le_refl _

end Place

/-! ### Gaps -/

namespace Gap

variable {g : Gap} {c : Char}

/-- Within a line white space is held back. -/
theorem reversed_addSpace (h : g.broken = false) (c : Char) :
    (g.addSpace c).broken = false ∧ (g.addSpace c).reversed = c :: g.reversed := by
  simp [addSpace, reversed, h]

/-- Around line ends it does not count. -/
theorem addSpace_of_broken (h : g.broken = true) (c : Char) : g.addSpace c = g := by
  simp [addSpace, h]

end Gap

theorem isPrinted_ne {c d : Char} (hc : isPrinted c = true) (hd : isPrinted d = false) :
    c ≠ d := by
  rintro rfl
  simp [hc] at hd

/-! ### Double quotes -/

theorem escapeLetter?_spec {c letter : Char} (h : escapeLetter? c = some letter) :
    escapeDigits? letter = none ∧ escaped? letter = some c ∧ letter ≠ '\r' := by
  unfold escapeLetter? at h
  split at h
  all_goals first
    | cases h
      exact ⟨rfl, rfl, by decide⟩
    | cases h

theorem hexDigit?_capitalDigit {n : Nat} (h : n < 16) : hexDigit? (capitalDigit n) = some n := by
  interval_cases n <;> decide

/-- Hexadecimal digits are those of the number. -/
theorem exists_digits_capitalHex (n width : Nat) : ∃ ds : List Nat,
    (capitalHex n width).map hexDigit? = ds.map some ∧ ds.length = width ∧
      ds.foldl (fun v d => 16 * v + d) 0 = n % 16 ^ width := by
  induction width generalizing n with
  | zero => exact ⟨[], rfl, rfl, by simp [Nat.mod_one]⟩
  | succ width ih =>
    obtain ⟨ds, hmap, hlength, hvalue⟩ := ih (n / 16)
    refine ⟨ds ++ [n % 16], ?_, by simp [hlength], ?_⟩
    · rw [capitalHex, List.map_append, hmap, List.map_append, List.map_singleton,
        hexDigit?_capitalDigit (Nat.mod_lt n (by decide)), List.map_singleton]
    · rw [List.foldl_append, hvalue, List.foldl_cons, List.foldl_nil, Nat.pow_succ', Nat.mod_mul]
      omega

/-- The digits of an escape are put together. -/
theorem readDouble_digits {hs : List Char} {ds : List Nat} (hmap : hs.map hexDigit? = ds.map some)
    (hne : hs ≠ []) (done : List Char) (v : Nat) (p : Place) (rest : List Char)
    (hvalid : (ds.foldl (fun v d => 16 * v + d) v).isValidChar) :
    readDouble done {} (.digits hs.length v) p (hs ++ rest) =
      readDouble (Char.ofNat (ds.foldl (fun v d => 16 * v + d) v) :: done) {} .text
        (p.move hs.length) rest := by
  induction hs generalizing ds v p with
  | nil => exact absurd rfl hne
  | cons c hs ih =>
    obtain _ | ⟨d, ds⟩ := ds
    · cases hmap
    · obtain ⟨hc, hmap⟩ := List.cons.inj hmap
      have hreturn : c ≠ '\r' := by
        rintro rfl
        cases hc
      rw [List.cons_append, readDouble.eq_6 _ _ _ _ _ _ _ fun _ h _ => hreturn h]
      simp only [hc]
      obtain _ | ⟨c', hs⟩ := hs
      · obtain rfl : ds = [] := by simpa using hmap.symm
        simp only [List.foldl_cons, List.foldl_nil] at hvalid
        have hbad : ((0xD800 ≤ 16 * v + d && 16 * v + d ≤ 0xDFFF) || 0x10FFFF < 16 * v + d) =
            false := by
          unfold Nat.isValidChar at hvalid
          simp
          omega
        simp [hbad]
      · rw [if_pos (by simp), List.length_cons, Nat.add_sub_cancel,
          ih hmap (List.cons_ne_nil _ _) _ _ hvalid, Place.move_move, Nat.add_comm 1]
        rfl

variable {done rest : List Char} {gap : Gap} {p : Place}

/-- A backslash begins an escape. -/
theorem readDouble_backslash (hp : 0 < p.column) (cs : List Char) :
    readDouble done gap .text p ('\\' :: cs) =
      readDouble (gap.reversed ++ done) {} .escape p.move cs := by
  rw [readDouble.eq_7 _ _ _ _ _ fun _ h _ => absurd h (by decide)]
  simp [isSpace, isBreak, hp.ne']

/-- An escape by the digits of the character. -/
theorem readDouble_hex {c letter : Char} {width : Nat} (hp : 0 < p.column)
    (hdigits : escapeDigits? letter = some width) (hreturn : letter ≠ '\r') (hwidth : width ≠ 0)
    (hfits : c.toNat < 16 ^ width) :
    readDouble done gap .text p ('\\' :: letter :: capitalHex c.toNat width ++ rest) =
      readDouble (c :: gap.reversed ++ done) {} .text
        (p.move ('\\' :: letter :: capitalHex c.toNat width).length) rest := by
  obtain ⟨ds, hmap, hlength, hvalue⟩ := exists_digits_capitalHex c.toNat width
  rw [Nat.mod_eq_of_lt hfits] at hvalue
  have hlen : (capitalHex c.toNat width).length = width := by
    rw [← List.length_map (f := hexDigit?), hmap, List.length_map, hlength]
  have hne : capitalHex c.toNat width ≠ [] := fun h => hwidth (by rw [← hlen, h]; rfl)
  have hread := readDouble_digits hmap hne (gap.reversed ++ done) 0 (p.move.move) rest
    (by rw [hvalue]; exact c.valid)
  rw [hvalue, hlen, Char.ofNat_toNat] at hread
  rw [List.cons_append, List.cons_append, readDouble_backslash hp,
    readDouble.eq_5 _ _ _ _ _ fun _ h _ => hreturn h]
  simp only [hdigits]
  rw [hread, Place.move_move, Place.move_move, List.length_cons, List.length_cons, hlen]
  congr 2
  omega

/-- An escape is read as its character. -/
theorem readDouble_escape {c : Char}
    (h : (isPrinted c && !isBreak c && c != '"' && c != '\\') = false)
    (hp : 0 < p.column) : readDouble done gap .text p (doubleChar c ++ rest) =
      readDouble (c :: gap.reversed ++ done) {} .text (p.move (doubleChar c).length) rest := by
  simp only [doubleChar, h, Bool.false_eq_true, if_false]
  split
  · next letter hletter =>
    obtain ⟨hdigits, hescaped, hreturn⟩ := escapeLetter?_spec hletter
    rw [List.cons_append, List.cons_append, readDouble_backslash hp,
      readDouble.eq_5 _ _ _ _ _ fun _ h _ => hreturn h]
    simp only [hdigits, hescaped]
    rw [Place.move_move]
    rfl
  · have hvalid : c.toNat.isValidChar := c.valid
    unfold Nat.isValidChar at hvalid
    split_ifs
    · exact readDouble_hex hp rfl (by decide) (by decide) (by omega)
    · exact readDouble_hex hp rfl (by decide) (by decide) (by omega)
    · exact readDouble_hex hp rfl (by decide) (by decide) (by omega)

/-- A character between double quotes is read back, held back if it is a space. -/
theorem readDouble_doubleChar (c : Char) (hgap : gap.broken = false) (hp : 0 < p.column) :
    ∃ done' gap', gap'.broken = false ∧ gap'.reversed ++ done' = c :: (gap.reversed ++ done) ∧
      ∀ rest, readDouble done gap .text p (doubleChar c ++ rest) =
        readDouble done' gap' .text (p.move (doubleChar c).length) rest := by
  by_cases h : (isPrinted c && !isBreak c && c != '"' && c != '\\') = true
  · have hchar : doubleChar c = [c] := if_pos h
    simp only [Bool.and_eq_true, Bool.not_eq_true', bne_iff_ne] at h
    obtain ⟨⟨⟨hprinted, hbreak⟩, hquote⟩, hbackslash⟩ := h
    have hreturn : c ≠ '\r' := isPrinted_ne hprinted (by decide)
    have hread (rest : List Char) : readDouble done gap .text p (c :: rest) =
        if isSpace c then readDouble done (gap.addSpace c) .text p.move rest
        else readDouble (c :: gap.reversed ++ done) {} .text p.move rest := by
      rw [readDouble.eq_7 _ _ _ _ _ fun _ h _ => hreturn h]
      simp [hquote, hbreak, hbackslash, hp.ne']
    rw [hchar]
    cases hspace : isSpace c with
    | true =>
      obtain ⟨hunbroken, hreversed⟩ := Gap.reversed_addSpace hgap c
      refine ⟨done, _, hunbroken, by rw [hreversed]; rfl, fun rest => ?_⟩
      rw [List.singleton_append, hread, hspace]
      rfl
    | false =>
      refine ⟨_, {}, rfl, rfl, fun rest => ?_⟩
      rw [List.singleton_append, hread, hspace]
      rfl
  · exact ⟨_, {}, rfl, rfl, fun rest => readDouble_escape (by simpa using h) hp⟩

/-- **A text between double quotes is read back.** -/
theorem readDouble_text (cs : List Char) (hgap : gap.broken = false) (hp : 0 < p.column) :
    readDouble done gap .text p (cs.flatMap doubleChar ++ '"' :: rest) =
      some ⟨(gap.reversed ++ done).reverse ++ cs,
        ⟨rest, p.move ((cs.flatMap doubleChar).length + 1)⟩, false⟩ := by
  induction cs generalizing done gap p with
  | nil =>
    rw [List.flatMap_nil, List.nil_append, readDouble.eq_7 _ _ _ _ _ fun _ h _ =>
      absurd h (by decide)]
    simp
  | cons c cs ih =>
    obtain ⟨done', gap', hgap', hread, heq⟩ := readDouble_doubleChar c hgap hp
    rw [List.flatMap_cons, List.append_assoc, heq (cs.flatMap doubleChar ++ '"' :: rest),
      ih hgap' (by rw [Place.column_move]; omega), hread, Place.move_move]
    simp [Nat.add_assoc]

/-! ### Single quotes -/

/-- A character that is written for itself, but for a quote. -/
theorem readSingle_cons {c : Char} (hquote : c ≠ '\'') (hreturn : c ≠ '\r') :
    readSingle done gap p (c :: rest) =
      if isSpace c then readSingle done (gap.addSpace c) p.move rest
      else if isBreak c then readSingle done (gap.addBreak c) p.nextLine rest
      else if p.column = 0 && atDocumentMark (c :: rest) then none
      else readSingle (c :: gap.reversed ++ done) {} p.move rest :=
  readSingle.eq_5 _ _ _ _ _ (fun _ h _ => hquote h) hquote fun _ h _ => hreturn h

/-- The line ends of a gap are separators of lines or paragraphs, which all count. -/
def Gap.KeepsBreaks (g : Gap) : Prop := g.broken = true → g.first ≠ ['\n']

theorem Gap.KeepsBreaks.addBreak {g : Gap} (h : g.KeepsBreaks) {c : Char}
    (hc : keptBreak c = c) (hline : c ≠ '\n') (hspaces : g.broken = false → g.spaces = []) :
    (g.addBreak c).broken = true ∧ (g.addBreak c).KeepsBreaks ∧
      (g.addBreak c).reversed = c :: g.reversed := by
  cases hbroken : g.broken with
  | true =>
    simp only [Gap.addBreak, hbroken, if_true, Gap.KeepsBreaks, Gap.reversed, if_neg (h hbroken)]
    exact ⟨trivial, fun _ => h hbroken, by rw [hc]; rfl⟩
  | false =>
    simp [Gap.addBreak, Gap.KeepsBreaks, Gap.reversed, hbroken, hspaces hbroken, hc, hline]

theorem hasPair_cons {p q : Char → Bool} {c : Char} {cs : List Char}
    (h : hasPair p q (c :: cs) = false) :
    (p c = true → ∀ d ∈ cs.head?, q d = false) ∧ hasPair p q cs = false := by
  cases cs with
  | nil => simp [hasPair]
  | cons d cs =>
    rw [hasPair, Bool.or_eq_false_iff] at h
    refine ⟨fun hp e he => ?_, h.2⟩
    obtain rfl : d = e := by simpa using he
    simpa [hp] using h.1

/-- The spaces that move a line in do not count behind a line end. -/
theorem readSingle_margin {fresh : Bool} (hfresh : fresh = true → gap.broken = true) (indent : Nat)
    (cs : List Char) : readSingle done gap p ((if fresh then spaces indent else []) ++ cs) =
      readSingle done gap (p.move (if fresh then indent else 0)) cs := by
  cases fresh with
  | false => rfl
  | true =>
    have hbroken := hfresh rfl
    simp only [if_true]
    induction indent generalizing p with
    | zero => rfl
    | succ n ih =>
      rw [spaces, List.replicate_succ, List.cons_append,
        readSingle_cons (by decide) (by decide), if_pos (by decide),
        Gap.addSpace_of_broken hbroken, ← spaces, ih, Place.move_move, Nat.add_comm]

/-- A text that single quotes keep, as far as it stands behind what has been read. -/
structure KeptBySingle (fresh : Bool) (gap : Gap) (cs : List Char) : Prop where
  printed : ∀ c ∈ cs, isPrinted c = true ∧ c ≠ '\n'
  afterBreak : hasPair isBreak isBlankSpace cs = false
  beforeBreak : hasPair isBlankSpace isBreak cs = false
  broken : gap.broken = fresh
  keepsBreaks : gap.KeepsBreaks
  ofFresh : fresh = true → ∀ c ∈ cs.head?, isBlankSpace c = false
  ofSpaces : fresh = false → gap.spaces ≠ [] → ∀ c ∈ cs.head?, isBreak c = false

/-- What single quotes keep is kept from the opening quote on. -/
theorem keptBySingle_of_allowsSingle {cs : List Char} (h : allowsSingle cs = true)
    (hline : '\n' ∉ cs) : KeptBySingle false {} cs := by
  simp only [allowsSingle, Bool.and_eq_true, Bool.not_eq_true', List.all_eq_true] at h
  exact {
    printed := fun c hc => ⟨h.1.1 c hc, fun hn => hline (hn ▸ hc)⟩
    afterBreak := h.1.2
    beforeBreak := h.2
    broken := rfl
    keepsBreaks := fun hb => absurd hb (by decide)
    ofFresh := fun hf => absurd hf (by decide)
    ofSpaces := fun _ hs => absurd rfl hs }

theorem keptBreak_eq_self {c : Char} (hc : isBreak c = true) (hprinted : isPrinted c = true) :
    keptBreak c = c := by
  have hreturn := isPrinted_ne hprinted (d := '\r') (by decide)
  have hnext := isPrinted_ne hprinted (d := '\u0085') (by decide)
  unfold keptBreak
  split_ifs with h
  · rfl
  · simp [isBreak, hreturn, hnext] at hc h
    simp_all

theorem isBlankSpace_of_isSpace {c : Char} (hprinted : isPrinted c = true)
    (h : isSpace c = true) : isBlankSpace c = true := by
  have htab := isPrinted_ne hprinted (d := '\t') (by decide)
  simpa [isSpace, isBlankSpace, htab] using h

theorem isSpace_of_isBreak {c : Char} (h : isBreak c = true) : isSpace c = false := by
  rw [← Bool.not_eq_true]
  intro hspace
  simp only [isSpace, Bool.or_eq_true, beq_iff_eq] at hspace
  rcases hspace with rfl | rfl <;> simp [isBreak] at h

namespace KeptBySingle

variable {fresh : Bool} {c : Char} {cs : List Char}

/-- What holds of a text holds of the rest of it behind a character within a line. -/
theorem tail (h : KeptBySingle fresh gap (c :: cs)) {gap' : Gap} (hbroken : gap'.broken = false)
    (hspaces : gap'.spaces ≠ [] → isBlankSpace c = true) : KeptBySingle false gap' cs where
  printed d hd := h.printed d (List.mem_cons_of_mem _ hd)
  afterBreak := (hasPair_cons h.afterBreak).2
  beforeBreak := (hasPair_cons h.beforeBreak).2
  broken := hbroken
  keepsBreaks hb := by simp [hbroken] at hb
  ofFresh hf := by cases hf
  ofSpaces _ hs := (hasPair_cons h.beforeBreak).1 (hspaces hs)

/-- And behind a line end, which the gap keeps. -/
theorem addBreak (h : KeptBySingle fresh gap (c :: cs)) (hc : isBreak c = true) :
    KeptBySingle true (gap.addBreak c) cs ∧ (gap.addBreak c).reversed = c :: gap.reversed := by
  obtain ⟨hprinted, hline⟩ := h.printed c (List.mem_cons_self ..)
  have hspaces (hb : gap.broken = false) : gap.spaces = [] := by
    by_contra hne
    simp [h.ofSpaces (h.broken.symm.trans hb) hne c rfl] at hc
  obtain ⟨hbroken, hkeeps, hreversed⟩ :=
    h.keepsBreaks.addBreak (keptBreak_eq_self hc hprinted) hline hspaces
  refine ⟨⟨fun d hd => h.printed d (List.mem_cons_of_mem _ hd), (hasPair_cons h.afterBreak).2,
    (hasPair_cons h.beforeBreak).2, hbroken, hkeeps, fun _ => (hasPair_cons h.afterBreak).1 hc,
    fun hf => by cases hf⟩, hreversed⟩

end KeptBySingle

/-- A character within a line, as it is written between single quotes. -/
def singleChar (c : Char) : List Char := if c == '\'' then ['\'', '\''] else [c]

/-- It is read back, held back if it is a space. -/
theorem readSingle_singleChar {fresh : Bool} {c : Char} {cs : List Char}
    (h : KeptBySingle fresh gap (c :: cs)) (hbreak : isBreak c = false) (hp : 0 < p.column) :
    ∃ done' gap', (∀ rest, readSingle done gap p (singleChar c ++ rest) =
        readSingle done' gap' (p.after (singleChar c)) rest) ∧
      KeptBySingle false gap' cs ∧ gap'.reversed ++ done' = c :: (gap.reversed ++ done) ∧
      p.column < (p.after (singleChar c)).column := by
  obtain ⟨hprinted, -⟩ := h.printed c (List.mem_cons_self ..)
  have hreturn : c ≠ '\r' := isPrinted_ne hprinted (by decide)
  by_cases hquote : c = '\''
  · subst hquote
    have hplace : p.after (singleChar '\'') = p.move 2 := by
      simp [singleChar, Place.after_cons, isBreak, Place.move_move]
    refine ⟨_, {}, fun rest => ?_, h.tail rfl (by simp), rfl, by simp [hplace]⟩
    rw [hplace]
    exact readSingle.eq_2 ..
  · have hchar : singleChar c = [c] := if_neg (by simpa using hquote)
    have hplace : p.after [c] = p.move := by simp [Place.after_cons, hbreak]
    rw [hchar, hplace]
    cases hspace : isSpace c with
    | true =>
      have hblank := isBlankSpace_of_isSpace hprinted hspace
      have hfresh : gap.broken = false := by
        rw [h.broken, ← Bool.not_eq_true]
        exact fun hf => by simp [h.ofFresh hf c rfl] at hblank
      obtain ⟨hunbroken, hreversed⟩ := Gap.reversed_addSpace hfresh c
      refine ⟨done, _, fun rest => ?_, h.tail hunbroken fun _ => hblank, by rw [hreversed]; rfl,
        by simp⟩
      rw [List.singleton_append, readSingle_cons hquote hreturn, if_pos hspace]
    | false =>
      refine ⟨_, {}, fun rest => ?_, h.tail rfl (by simp), rfl, by simp⟩
      rw [List.singleton_append, readSingle_cons hquote hreturn, if_neg (by simp [hspace]),
        if_neg (by simp [hbreak]), if_neg (by simp [hp.ne'])]
      rfl

/-- **A text between single quotes is read back**, line and paragraph separators included. -/
theorem readSingle_text {indent : Nat} {fresh : Bool} {cs : List Char} (hindent : 0 < indent)
    (hrest : rest.head? ≠ some '\'') (hp : fresh = false → 0 < p.column)
    (h : KeptBySingle fresh gap cs) :
    readSingle done gap p (singleChars indent fresh cs ++ '\'' :: rest) =
      some ⟨(gap.reversed ++ done).reverse ++ cs,
        ⟨rest, (p.after (singleChars indent fresh cs)).move⟩, false⟩ := by
  induction cs generalizing done gap p fresh with
  | nil =>
    rw [singleChars, readSingle_margin (fun hf => h.broken.trans hf), Place.after_margin,
      readSingle.eq_3 _ _ _ _ fun _ hr => hrest (by rw [hr]; rfl)]
    simp
  | cons c cs ih =>
    obtain ⟨hprinted, -⟩ := h.printed c (List.mem_cons_self ..)
    have hreturn : c ≠ '\r' := isPrinted_ne hprinted (by decide)
    cases hbreak : isBreak c with
    | true =>
      have hquote : c ≠ '\'' := by
        rintro rfl
        simp [isBreak] at hbreak
      obtain ⟨htail, hreversed⟩ := h.addBreak hbreak
      rw [singleChars, if_pos hbreak, List.cons_append, readSingle_cons hquote hreturn,
        isSpace_of_isBreak hbreak, if_neg (by decide), if_pos hbreak, ih (by simp) htail,
        hreversed, Place.after_cons, if_pos hbreak]
      simp
    | false =>
      -- the margin of a fresh line leads to a column within it
      have hcolumn : 0 < (p.move (if fresh then indent else 0)).column := by
        rw [Place.column_move]
        cases fresh with
        | false => exact Nat.lt_of_lt_of_le (hp rfl) (Nat.le_add_right _ _)
        | true => exact Nat.lt_of_lt_of_le hindent (Nat.le_add_left _ _)
      have hchars : singleChars indent fresh (c :: cs) = (if fresh then spaces indent else []) ++
          (singleChar c ++ singleChars indent false cs) := by
        rw [singleChars, if_neg (by simp [hbreak]), List.append_assoc]
        rfl
      obtain ⟨done', gap', hread, htail, hreversed, hmore⟩ :=
        readSingle_singleChar h hbreak hcolumn
      rw [hchars, List.append_assoc, readSingle_margin (fun hf => h.broken.trans hf),
        List.append_assoc, hread, ih (fun _ => hcolumn.trans hmore) htail, hreversed,
        Place.after_append, Place.after_append, Place.after_margin]
      simp

end Yaml
end ClusterSync
