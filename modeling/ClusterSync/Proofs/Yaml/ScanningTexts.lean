/-
# How the scanner goes through written scalars

Each way of writing a text begins with a character that tells it, or, without quotes, with
none that tells anything else (`token?_plain`). So a text behind a dash or a colon yields its
scalar and leads to the token behind the line end (`Yields.scalar`). A short text
in front of a colon yields a key with its scalar, and the first one a mapping as well
(`Yields.key`, `Yields.roll_key`): it stands in one line, within reach of the colon
(`exists_isKeyText`).
-/

import ClusterSync.Proofs.Yaml.Scanning

namespace ClusterSync
namespace Yaml

/-! ### In which way a text is written -/

/-- What is known of a text that is written in a way. -/
inductive IsWritten (s : String) : Style → Prop
  | single : allowsSingle s.toList = true → '\n' ∉ s.toList → IsWritten s .single
  | double : IsWritten s .double
  | literal : allowsLiteral s.toList = true → '\n' ∈ s.toList → IsWritten s .literal
  | plain : allowsPlain s.toList = true → readsOtherwise s = false → IsWritten s .plain

theorem isWritten (s : String) : IsWritten s (Style.ofText s) := by
  have hquoted (hline : s.toList.contains '\n' = false) :
      IsWritten s (if allowsSingle s.toList then .single else .double) := by
    split_ifs with h
    · exact .single h (by simpa using hline)
    · exact .double
  simp only [Style.ofText]
  cases hline : s.toList.contains '\n' with
  | true =>
    simp only [if_true]
    split_ifs with hliteral
    · exact .literal hliteral (by simpa using hline)
    · exact .double
  | false =>
    simp only [Bool.false_eq_true, if_false]
    cases hother : readsOtherwise s with
    | true => exact hquoted hline
    | false =>
      cases hplain : allowsPlain s.toList with
      | true => exact .plain hplain hother
      | false => exact hquoted hline

/-- The empty text is not written without quotes: it would be a null. -/
theorem ne_nil_of_readsOtherwise {s : String} (h : readsOtherwise s = false) : s.toList ≠ [] := by
  intro hnil
  obtain rfl : s = "" := String.toList_inj.1 hnil
  revert h
  decide

theorem beginsAsMark_cons {c : Char} {cs : List Char} (h : beginsAsMark (c :: cs) = false) :
    "#,[]\x7b\x7d&*!|>'\"%@\x60".toList.contains c = false ∧
      ((c == '?' || c == '-') = true → atBlank cs = false) := by
  unfold beginsAsMark at h
  split at h
  · cases h
  · cases h
  · next heq =>
    obtain ⟨rfl, rfl⟩ := List.cons.inj heq
    rw [Bool.or_eq_false_iff] at h
    exact ⟨h.1, fun hc => by simpa [hc] using h.2⟩
  · next heq => cases heq

/-! ### How a text without quotes begins -/

section Plain

variable {c : Char} {cs rest : List Char} (h : allowsPlain (c :: cs) = true)

include h

/-- It begins with a printed character that is no space. -/
theorem first_of_allowsPlain :
    isPrinted c = true ∧ isSpace c = false ∧ isBreak c = false := by
  simp only [allowsPlain, Bool.and_eq_true, Bool.not_eq_true', List.all_eq_true, List.head?_cons,
    Option.any_some, isBlankSpace, beq_eq_false_iff_ne] at h
  obtain ⟨hprinted, hbreak⟩ := h.1.1.1 c (List.mem_cons_self ..)
  exact ⟨hprinted, by simp [isSpace, h.1.1.2, isPrinted_ne hprinted (d := '\t') (by decide)],
    hbreak⟩

theorem hasMarks_of_allowsPlain :
    beginsAsMark (c :: cs) = false ∧ hasOpenColon (c :: cs) = false := by
  simp only [allowsPlain, hasMarks, Bool.and_eq_true, Bool.not_eq_true',
    Bool.or_eq_false_iff] at h
  exact h.2.1

/-- It begins with none of the marks that always are one. -/
theorem ne_of_allowsPlain {d : Char}
    (hd : "#,[]\x7b\x7d&*!|>'\"%@\x60".toList.contains d = true) : c ≠ d := by
  rintro rfl
  have hmark := (beginsAsMark_cons (hasMarks_of_allowsPlain h).1).1
  rw [hd] at hmark
  cases hmark

/-- A dash, a question mark or a colon is followed by a word. -/
theorem atGap_of_allowsPlain (hc : c = '-' ∨ c = '?' ∨ c = ':') : atGap (cs ++ rest) = false := by
  obtain ⟨hbegins, hcolon⟩ := hasMarks_of_allowsPlain h
  have hword : atBlank cs = false := by
    rcases hc with rfl | rfl | rfl
    · exact (beginsAsMark_cons hbegins).2 rfl
    · exact (beginsAsMark_cons hbegins).2 rfl
    · rw [hasOpenColon, Bool.or_eq_false_iff] at hcolon
      simpa using hcolon.1
  obtain _ | ⟨d, cs⟩ := cs
  · cases hword
  · exact (Bool.or_eq_false_iff.1 hword).1

theorem beginsPlain_of_allowsPlain : Scanner.beginsPlain false (c :: (cs ++ rest)) = true := by
  obtain ⟨-, hspace, hbreak⟩ := first_of_allowsPlain h
  by_cases hc : c = '-' ∨ c = '?' ∨ c = ':'
  · have hword : atGap (cs ++ rest) = false := atGap_of_allowsPlain h hc
    rcases hc with rfl | rfl | rfl
    · cases hrest : cs ++ rest with
      | nil => rfl
      | cons d ds =>
        rw [hrest, atGap, Bool.or_eq_false_iff] at hword
        simp [Scanner.beginsPlain, hword.1]
    · simp [Scanner.beginsPlain, hword]
    · simp [Scanner.beginsPlain, hword]
  · rw [not_or, not_or] at hc
    have hne (d : Char) (hd : "#,[]\x7b\x7d&*!|>'\"%@\x60".toList.contains d = true) : c ≠ d :=
      ne_of_allowsPlain h hd
    simp only [isSpace, Bool.or_eq_false_iff, beq_eq_false_iff_ne] at hspace
    simp [Scanner.beginsPlain, isSpace, Scanner.isIndicator, hspace, hbreak, hc, hne]

/-- The scanner finds its next token there. -/
theorem isVisible_of_allowsPlain : isVisible c = true := by
  obtain ⟨hprinted, hspace, hbreak⟩ := first_of_allowsPlain h
  have hcomment : c ≠ '#' := ne_of_allowsPlain h (by decide)
  simp [isVisible, hspace, hbreak, hcomment, isPrinted_ne hprinted (d := '\uFEFF') (by decide)]

end Plain

namespace Scanner

variable {ts : List Token} {text rest tail : List Char} {p q : Place}
  {T : List Token} {is : List Nat} {allowed : Bool} {c : Char}

/-- The text that begins here, if it may be a key: it has to be one at the column of the
innermost collection. -/
def saved (p : Place) (T : List Token) (is : List Nat) (allowed : Bool) : Option Candidate :=
  if allowed then some ⟨is.head? == some p.column, T.length, p⟩ else none

theorem saveCandidate?_front : (front text p T is allowed).saveCandidate? =
    some (front text p T is allowed (saved p T is allowed)) := by
  cases allowed <;> rfl

/-- A text between single quotes. -/
theorem token?_single {s : String} {b : Bool}
    (h : readSingle [] {} p.move rest = some ⟨s.toList, ⟨tail, q⟩, b⟩) :
    (front ('\'' :: rest) p T is allowed).token? '\'' rest =
      some (front tail q (.scalar .single s :: T) is false (saved p T is allowed)) := by
  have htoken : (front ('\'' :: rest) p T is allowed).token? '\'' rest =
      (front ('\'' :: rest) p T is allowed).quoted? .single := by
    simp [token?, atDocumentMark]
  have hread : readSingle [] {} (Cursor.next ⟨'\'' :: rest, p⟩).place
      (Cursor.next ⟨'\'' :: rest, p⟩).rest =
      some ⟨s.toList, ⟨tail, q⟩, b⟩ := h
  rw [htoken, quoted?, saveCandidate?_front]
  simp [front, hread, pushAt]

/-- A text between double quotes. -/
theorem token?_double {s : String} {b : Bool}
    (h : readDouble [] {} .text p.move rest = some ⟨s.toList, ⟨tail, q⟩, b⟩) :
    (front ('"' :: rest) p T is allowed).token? '"' rest =
      some (front tail q (.scalar .double s :: T) is false (saved p T is allowed)) := by
  have htoken : (front ('"' :: rest) p T is allowed).token? '"' rest =
      (front ('"' :: rest) p T is allowed).quoted? .double := by
    simp [token?, atDocumentMark]
  have hread : readDouble [] {} .text (Cursor.next ⟨'"' :: rest, p⟩).place
      (Cursor.next ⟨'"' :: rest, p⟩).rest =
      some ⟨s.toList, ⟨tail, q⟩, b⟩ := h
  rw [htoken, quoted?, saveCandidate?_front]
  simp [front, hread, pushAt]

/-- A literal. -/
theorem token?_literal {m : Nat} {s : String} {b : Bool}
    (h : readBlockScalar? true (some m) ⟨rest, p.move⟩ = some ⟨s.toList, ⟨tail, q⟩, b⟩) :
    (front ('|' :: rest) p T (m :: is) allowed).token? '|' rest =
      some (front tail q (.scalar .literal s :: T) (m :: is) true) := by
  have htoken : (front ('|' :: rest) p T (m :: is) allowed).token? '|' rest =
      (front ('|' :: rest) p T (m :: is) allowed).blockScalar? .literal := by
    simp [token?, atDocumentMark, inFlow, front]
  have hread : readBlockScalar? true (some m) (Cursor.next ⟨'|' :: rest, p⟩) =
      some ⟨s.toList, ⟨tail, q⟩, b⟩ := h
  rw [htoken, blockScalar?]
  simp [front, dropCandidate?, candidate?, setCandidate, indent?, hread, pushAt]

/-- A text without quotes begins as no other token does. -/
theorem token?_plain {s : String} {cs : List Char} {b : Bool} (hs : s.toList = c :: cs)
    (h : allowsPlain s.toList = true)
    (hmark : p.column = 0 → atDocumentMark (s.toList ++ rest) = false)
    (hread : readPlain false (is.head?.elim 0 (· + 1)) [] {} p (s.toList ++ rest) =
      some ⟨s.toList, ⟨tail, q⟩, b⟩) :
    (front (s.toList ++ rest) p T is allowed).token? c (cs ++ rest) =
      some (front tail q (.scalar .plain s :: T) is b (saved p T is allowed)) := by
  obtain rfl : s = String.ofList (c :: cs) := by rw [← hs, String.ofList_toList]
  rw [String.toList_ofList] at *
  have htoken : (front (c :: (cs ++ rest)) p T is allowed).token? c (cs ++ rest) =
      (front (c :: (cs ++ rest)) p T is allowed).plain? := by
    have hflow : (front (c :: (cs ++ rest)) p T is allowed).inFlow = false := rfl
    have hcolumn : (front (c :: (cs ++ rest)) p T is allowed).cursor.column = p.column := rfl
    have hne (d : Char) (hd : "#,[]\x7b\x7d&*!|>'\"%@\x60".toList.contains d = true) : c ≠ d :=
      ne_of_allowsPlain h hd
    have hstart (d : Char) (hd : d = '-' ∨ d = '?' ∨ d = ':') :
        ¬(c = d ∧ atGap (cs ++ rest) = true) := by
      rintro ⟨rfl, hgap⟩
      simp [atGap_of_allowsPlain h hd] at hgap
    have hdocument : ¬(p.column = 0 ∧ atDocumentMark (c :: (cs ++ rest)) = true) :=
      fun ⟨hp, hm⟩ => absurd hm (by rw [← List.cons_append, hmark hp]; decide)
    simp [token?, hflow, hcolumn, beginsPlain_of_allowsPlain h, hdocument, hstart, hne]
  rw [List.cons_append, htoken, plain?, saveCandidate?_front]
  cases is with
  | nil => exact congrArg (Option.bind · _) hread
  | cons m is => exact congrArg (Option.bind · _) hread

/-! ### Texts behind a mark -/

/-- A text that is no key is further in than the collection around it, so it need not be one. -/
theorem required_eq_false {m : Nat} (hp : m < p.column) :
    ∀ k ∈ saved p T (m :: is) allowed, k.required = false ∧ k.place = p := by
  intro k hk
  cases allowed with
  | false => cases hk
  | true =>
    obtain rfl : _ = k := Option.some.inj hk
    exact ⟨by simpa [saved] using hp.ne, rfl⟩

/-- Behind the text of a scalar the line ends, and another one begins. -/
theorem Yields.lineEnd {m k : Nat} {T' : List Token} (hp : m < p.column) (hline : p.line ≤ q.line)
    (htail : IsAhead tail)
    (h : Yields (front tail (q.nextLine.move k) T' (m :: is) true) ts) :
    Yields (front ('\n' :: (Yaml.spaces k ++ tail)) q T' (m :: is) false
      (saved p T (m :: is) allowed)) ts := by
  refine h.line htail fun key hkey => ?_
  obtain ⟨hrequired, hplace⟩ := required_eq_false hp key hkey
  exact ⟨hrequired, hplace ▸ hline⟩

/-- A text without quotes, behind a dash or a colon. -/
theorem Yields.plain {s : String} {m k : Nat} (hs : allowsPlain s.toList = true)
    (hne : s.toList ≠ []) (hp : m < p.column) (hk : k ≤ m) (htail : IsAhead tail)
    (h : ∀ q : Place, q.column = k →
      Yields (front tail q (.scalar .plain s :: T) (m :: is) true) ts) :
    Yields (front (s.toList ++ '\n' :: (Yaml.spaces k ++ tail)) p T (m :: is) allowed) ts := by
  obtain ⟨c, cs, hcs⟩ := List.exists_cons_of_ne_nil hne
  have hread : readPlain false (m + 1) [] {} p (s.toList ++ '\n' :: (Yaml.spaces k ++ tail)) =
      some ⟨s.toList, ⟨tail, (p.move s.toList.length).nextLine.move k⟩, true⟩ :=
    readPlain_value (keptByPlain_of_allowsPlain hs) hp (by omega) (Nat.lt_succ_of_le hk) htail
  have hahead : IsAhead (s.toList ++ '\n' :: (Yaml.spaces k ++ tail)) := by
    rw [hcs] at hs ⊢
    exact isAhead_cons (isVisible_of_allowsPlain hs)
  refine Yields.token (settle?_ahead hahead (by simpa using hp.le) (by simp)) (by rw [hcs]; rfl)
    (token?_plain hcs hs (fun h0 => by omega) hread) (by simp [front]; omega) ?_
  refine (h _ (Nat.zero_add k)).forget htail fun key hkey => ?_
  obtain ⟨hrequired, hplace⟩ := required_eq_false hp key hkey
  exact ⟨hrequired, hplace ▸ Nat.lt_succ_self p.line⟩

/-- A text between single quotes, which may take more lines. -/
theorem Yields.single {s : String} {m k : Nat} (hs : allowsSingle s.toList = true)
    (hline : '\n' ∉ s.toList) (hp : m < p.column) (htail : IsAhead tail)
    (h : ∀ q : Place, q.column = k →
      Yields (front tail q (.scalar .single s :: T) (m :: is) true) ts) :
    Yields (front ('\'' :: (singleChars (m + 2) false s.toList ++
      '\'' :: '\n' :: (Yaml.spaces k ++ tail))) p T (m :: is) allowed) ts := by
  have hread : readSingle [] {} p.move
      (singleChars (m + 2) false s.toList ++ '\'' :: '\n' :: (Yaml.spaces k ++ tail)) = _ :=
    readSingle_text (by omega) (by simp) (fun _ => Nat.succ_pos p.column)
      (keptBySingle_of_allowsSingle hs hline)
  have hafter : p.line ≤ ((p.move.after (singleChars (m + 2) false s.toList)).move).line :=
    Place.line_le_after p.move _
  refine Yields.token (settle?_ahead (isAhead_cons (by decide)) (by simpa using hp.le) (by simp))
    rfl (token?_single hread) (by simp [front]; omega) ?_
  exact Yields.lineEnd hp hafter htail (h _ (Nat.zero_add k))

/-- A text between double quotes. -/
theorem Yields.double {s : String} {m k : Nat} (hp : m < p.column) (htail : IsAhead tail)
    (h : ∀ q : Place, q.column = k →
      Yields (front tail q (.scalar .double s :: T) (m :: is) true) ts) :
    Yields (front ('"' :: (s.toList.flatMap doubleChar ++
      '"' :: '\n' :: (Yaml.spaces k ++ tail))) p T (m :: is) allowed) ts := by
  have hread : readDouble [] {} .text p.move
      (s.toList.flatMap doubleChar ++ '"' :: '\n' :: (Yaml.spaces k ++ tail)) = _ :=
    readDouble_text s.toList rfl (Nat.succ_pos p.column)
  refine Yields.token (settle?_ahead (isAhead_cons (by decide)) (by simpa using hp.le) (by simp))
    rfl (token?_double hread) (by simp [front]; omega) ?_
  exact Yields.lineEnd hp (le_refl _) htail (h _ (Nat.zero_add k))

/-- A literal, which reaches up to the next token. -/
theorem Yields.literal {s : String} {m k : Nat} (hs : allowsLiteral s.toList = true)
    (hne : s.toList ≠ []) (hp : m < p.column) (hk : k ≤ m) (htail : IsAhead tail)
    (h : ∀ q : Place, q.column = k →
      Yields (front tail q (.scalar .literal s :: T) (m :: is) true) ts) :
    Yields (front ('|' :: (literalHints s.toList ++ '\n' :: (literalChars (m + 2) true s.toList ++
      (Yaml.spaces k ++ tail)))) p T (m :: is) allowed) ts := by
  simp only [allowsLiteral, Bool.and_eq_true, List.all_eq_true] at hs
  obtain ⟨q, hq, hread⟩ := readBlockScalar?_literal hs.1.1 hne hk htail p.move
  exact Yields.token (settle?_ahead (isAhead_cons (by decide)) (by simpa using hp.le) (by simp))
    rfl (token?_literal hread) (by simp [front]; omega) (h q hq)

/-- **A text behind a dash or a colon yields its scalar.** -/
theorem Yields.scalar {s : String} {m k : Nat} (hp : m < p.column) (hk : k ≤ m)
    (htail : IsAhead tail) (h : ∀ q : Place, q.column = k →
      Yields (front tail q (.scalar (Style.ofText s) s :: T) (m :: is) true) ts) :
    Yields (front (writeText (m + 2) s ++ (Yaml.spaces k ++ tail)) p T (m :: is) allowed) ts := by
  have hwritten := isWritten s
  generalize hstyle : Style.ofText s = style at hwritten h
  cases hwritten with
  | single hsingle hline =>
    simpa [writeText, hstyle] using Yields.single hsingle hline hp htail h
  | double =>
    simpa [writeText, hstyle] using Yields.double hp htail h
  | literal hliteral hline =>
    simpa [writeText, hstyle] using Yields.literal hliteral (List.ne_nil_of_mem hline) hp hk htail h
  | plain hplain hother =>
    have hne := ne_nil_of_readsOtherwise hother
    simpa [writeText, hstyle] using Yields.plain hplain hne hp hk htail h

/-! ### What has no entries -/

/-- The brackets of a collection take two tokens, the second of them within it. -/
theorem run_brackets {d : Char} {opening closing : Token} (hc : isVisible c = true)
    (hd : isVisible d = true) (hopen : ∀ s rest, token? s c rest = s.openFlow? opening)
    (hclose : ∀ s rest, token? s d rest = s.closeFlow? closing) (his : ∀ n ∈ is.head?, n ≤ p.column)
    (steps : Nat) : (front (c :: d :: rest) p T is allowed).run (steps + 2) =
      (front rest (p.move 2) (closing :: opening :: T) is false (saved p T is allowed)).run
        steps := by
  -- the scanner within the brackets
  let inner : Scanner :=
    { front (d :: rest) p.move (opening :: T) is true with
      flow := 1, candidates := [none, saved p T is allowed] }
  have hsettle : inner.settle? = some inner := by
    obtain ⟨hspace, hbreak, hreturn, hcomment, -⟩ := isVisible_iff.1 hd
    have hskip : skipGap true true false p.move (d :: rest) = (⟨d :: rest, p.move⟩, true) := by
      rw [skipGap]
      · simp [hspace, hbreak, hcomment]
      · exact fun _ h _ => hreturn h
    cases allowed <;>
      simp [inner, settle?, front, inFlow, hskip, dropStale?, Candidate.isStale, saved, unroll]
  have hopened : (front (c :: d :: rest) p T is allowed).openFlow? opening = some inner := by
    rw [openFlow?, saveCandidate?_front]
    rfl
  rw [run_succ (settle?_ahead (isAhead_cons hc) his (by simp)) rfl ((hopen ..).trans hopened),
    run_succ hsettle rfl (hclose ..)]
  rfl

theorem token?_bracket (s : Scanner) (rest : List Char) :
    s.token? '[' rest = s.openFlow? .flowSequenceStart ∧
      s.token? ']' rest = s.closeFlow? .flowSequenceEnd ∧
      s.token? '\x7b' rest = s.openFlow? .flowMappingStart ∧
      s.token? '\x7d' rest = s.closeFlow? .flowMappingEnd := by
  simp [token?, atDocumentMark]

/-- Brackets behind a dash or a colon. -/
theorem Yields.brackets {d : Char} {opening closing : Token} {m k : Nat} (hc : isVisible c = true)
    (hd : isVisible d = true) (hopen : ∀ s rest, token? s c rest = s.openFlow? opening)
    (hclose : ∀ s rest, token? s d rest = s.closeFlow? closing) (hp : m < p.column)
    (htail : IsAhead tail)
    (h : ∀ q : Place, q.column = k →
      Yields (front tail q (closing :: opening :: T) (m :: is) true) ts) :
    Yields (front (c :: d :: '\n' :: (Yaml.spaces k ++ tail)) p T (m :: is) allowed) ts := by
  have his (n : Nat) (hn : n ∈ (m :: is).head?) : n ≤ p.column := by
    obtain rfl : m = n := Option.some.inj hn
    exact hp.le
  have hline : p.line ≤ (p.move 2).line := le_refl _
  exact (Yields.lineEnd hp hline htail (h _ (Nat.zero_add k))).of_run 2 (le_refl _)
    (run_brackets hc hd hopen hclose his)

/-! ### Short keys -/

theorem atDocumentMark_key {cs : List Char} (h : beginsAsMark cs = false) :
    atDocumentMark (cs ++ ':' :: rest) = false := by
  obtain _ | ⟨a, _ | ⟨b, _ | ⟨d, cs⟩⟩⟩ := cs
  · rfl
  · simp [atDocumentMark]
  · simp [atDocumentMark]
  · have hmarks : ¬(a = '-' ∧ b = '-' ∧ d = '-') ∧ ¬(a = '.' ∧ b = '.' ∧ d = '.') := by
      constructor <;> rintro ⟨rfl, rfl, rfl⟩ <;> cases h
    simp only [List.cons_append]
    unfold atDocumentMark
    split
    · simp_all
    · simp_all
    · rfl

/-- Within a line the only change between single quotes is that of the quotes. -/
theorem singleChars_eq {n : Nat} {cs : List Char} (h : ∀ c ∈ cs, isBreak c = false) :
    singleChars n false cs = cs.flatMap singleChar := by
  induction cs with
  | nil => rfl
  | cons c cs ih =>
    simp [singleChars, singleChar, h c (List.mem_cons_self ..),
      ih fun d hd => h d (List.mem_cons_of_mem _ hd)]

theorem length_doubleChar_le (c : Char) : (doubleChar c).length ≤ 4 * c.utf8Size := by
  have hpos := c.utf8Size_pos
  have hwidth (n width : Nat) : (capitalHex n width).length = width := by
    obtain ⟨ds, hmap, hds, -⟩ := exists_digits_capitalHex n width
    simpa [hds] using congrArg List.length hmap
  have hsize : (0xFF < c.toNat → 2 ≤ c.utf8Size) ∧ (0xFFFF < c.toNat → c.utf8Size = 4) := by
    simp only [Char.utf8Size, UInt32.le_iff_toNat_le]
    change (0xFF < c.val.toNat → _) ∧ (0xFFFF < c.val.toNat → _)
    constructor <;> intro h <;> split_ifs <;> simp_all <;> omega
  unfold doubleChar
  split_ifs with hplain
  · simp; omega
  · cases hletter : escapeLetter? c with
    | some letter => simp; omega
    | none =>
      simp only []
      split_ifs with hsmall hmiddle
      · simp [hwidth]; omega
      · have := hsize.1 (by omega)
        simp [hwidth]; omega
      · have := hsize.2 (by omega)
        simp [hwidth]; omega

theorem length_flatMap_le {f : Char → List Char} (hf : ∀ c, (f c).length ≤ 4 * c.utf8Size)
    (s : String) : (s.toList.flatMap f).length ≤ 4 * Text.size s := by
  obtain ⟨cs, rfl⟩ : ∃ cs, s = String.ofList cs := ⟨s.toList, String.ofList_toList.symm⟩
  rw [Text.size, String.toList_ofList]
  induction cs with
  | nil => exact Nat.zero_le _
  | cons c cs ih =>
    rw [List.flatMap_cons, List.length_append, String.ofList_cons, String.utf8ByteSize_append,
      String.utf8ByteSize_singleton]
    have := hf c
    omega

/-- The text of a key is one token: it stands in one line, and the colon is within reach. -/
structure IsKeyText (s : String) (c : Char) (cs : List Char) : Prop where
  visible : isVisible c = true
  near : cs.length < 1024
  token : ∀ {rest T is} {p : Place}, atGap rest = true → (∀ i ∈ is.head?, i ≤ p.column) →
    (front (c :: (cs ++ ':' :: rest)) p T is true).token? c (cs ++ ':' :: rest) =
      some (front (':' :: rest) (p.move (cs.length + 1)) (.scalar (Style.ofText s) s :: T) is
        false (saved p T is true))

variable {s : String} {n : Nat}

theorem isKeyText_single (hstyle : Style.ofText s = .single) (hs : allowsSingle s.toList = true)
    (hsize : Text.size s ≤ 128) (hbreaks : ∀ c ∈ s.toList, isBreak c = false) (hn : 0 < n) :
    IsKeyText s '\'' (singleChars n false s.toList ++ ['\'']) := by
  have hchars := singleChars_eq (n := n) hbreaks
  have hlength : (singleChars n false s.toList).length ≤ 4 * Text.size s := by
    rw [hchars]
    refine length_flatMap_le (fun c => ?_) s
    have := c.utf8Size_pos
    unfold singleChar
    split_ifs <;> simp <;> omega
  have hwithin : ∀ c ∈ singleChars n false s.toList, isBreak c = false := by
    rw [hchars]
    intro c hc
    obtain ⟨d, hd, hcd⟩ := List.mem_flatMap.1 hc
    have := hbreaks d hd
    unfold singleChar at hcd
    split_ifs at hcd <;> simp_all
  have hline : '\n' ∉ s.toList := fun hmem => absurd (hbreaks _ hmem) (by decide)
  refine ⟨by decide, by simp; omega, fun {rest T is p} _ _ => ?_⟩
  have hread :
      readSingle [] {} p.move (singleChars n false s.toList ++ '\'' :: ':' :: rest) = _ :=
    readSingle_text hn (by simp) (fun _ => Nat.succ_pos p.column)
      (keptBySingle_of_allowsSingle hs hline)
  rw [Place.after_eq_move hwithin, Place.move_move, Place.move_move] at hread
  have htoken :
      (front ('\'' :: (singleChars n false s.toList ++ '\'' :: ':' :: rest)) p T is true).token?
        '\'' _ = _ := token?_single hread
  simpa [hstyle, Nat.add_comm, Nat.add_assoc] using htoken

theorem isKeyText_double (hstyle : Style.ofText s = .double) (hsize : Text.size s ≤ 128) :
    IsKeyText s '"' (s.toList.flatMap doubleChar ++ ['"']) := by
  have hlength := length_flatMap_le length_doubleChar_le s
  refine ⟨by decide, by simp at hlength ⊢; omega, fun {rest T is p} _ _ => ?_⟩
  have hread :
      readDouble [] {} .text p.move (s.toList.flatMap doubleChar ++ '"' :: ':' :: rest) = _ :=
    readDouble_text s.toList rfl (Nat.succ_pos p.column)
  rw [Place.move_move] at hread
  have htoken :
      (front ('"' :: (s.toList.flatMap doubleChar ++ '"' :: ':' :: rest)) p T is true).token?
        '"' _ = _ := token?_double hread
  simpa [hstyle, Nat.add_comm, Nat.add_assoc] using htoken

theorem isKeyText_plain {c : Char} {cs : List Char} (hstyle : Style.ofText s = .plain)
    (hs : s.toList = c :: cs) (hplain : allowsPlain s.toList = true)
    (hsize : Text.size s ≤ 128) : IsKeyText s c cs := by
  have hlength : (s.toList.flatMap fun c => [c]).length ≤ 4 * Text.size s := by
    refine length_flatMap_le (fun c => ?_) s
    have := c.utf8Size_pos
    simp
    omega
  rw [List.flatMap_singleton', hs, List.length_cons] at hlength
  refine ⟨isVisible_of_allowsPlain (hs ▸ hplain), by omega, fun {rest T is p} hrest his => ?_⟩
  have hmark : atDocumentMark (s.toList ++ ':' :: rest) = false :=
    atDocumentMark_key (hs ▸ (hasMarks_of_allowsPlain (hs ▸ hplain)).1)
  have hindent : is.head?.elim 0 (· + 1) ≤ p.column + 1 := by
    cases hhead : is.head? with
    | none => exact Nat.zero_le _
    | some i => exact Nat.succ_le_succ (his i hhead)
  have hread := readPlain_key (keptByPlain_of_allowsPlain hplain) hindent hrest (fun _ => hmark)
    (by simp [hs])
  have htoken : (front (s.toList ++ ':' :: rest) p T is true).token? c _ = _ :=
    token?_plain hs hplain (fun _ => hmark) hread
  rw [hs] at htoken
  rwa [hstyle]

/-- **A short key is written as the text of a key**, in whichever way. -/
theorem exists_isKeyText (hs : isShortKey s = true) (hn : 0 < n) :
    ∃ c cs, (writeText n s).dropLast = c :: cs ∧ IsKeyText s c cs := by
  simp only [isShortKey, Bool.and_eq_true, decide_eq_true_eq, Bool.not_eq_true', List.any_eq_false,
    Bool.not_eq_true] at hs
  obtain ⟨hsize, hbreaks⟩ := hs
  have hdrop (c : Char) (cs : List Char) (hwrite : writeText n s = c :: cs ++ ['\n']) :
      (writeText n s).dropLast = c :: cs := by
    rw [hwrite, List.dropLast_concat]
  have hwritten := isWritten s
  generalize hstyle : Style.ofText s = style at hwritten
  cases hwritten with
  | single hsingle =>
    refine ⟨_, _, hdrop _ _ ?_, isKeyText_single hstyle hsingle hsize hbreaks hn⟩
    simp [writeText, hstyle]
  | double =>
    refine ⟨_, _, hdrop _ _ ?_, isKeyText_double hstyle hsize⟩
    simp [writeText, hstyle]
  | literal hliteral hline => exact absurd (hbreaks _ hline) (by decide)
  | plain hplain hother =>
    obtain ⟨c, cs, hcs⟩ := List.exists_cons_of_ne_nil (ne_nil_of_readsOtherwise hother)
    refine ⟨c, cs, hdrop _ _ ?_, isKeyText_plain hstyle hcs hplain hsize⟩
    simp [writeText, hstyle, hcs]

/-- The colon shows that the text in front of it is a key, in a mapping that began with it. -/
theorem token?_colon_key {t : Token} (hrest : atGap rest = true) :
    (front (':' :: rest) q (t :: T) is false (saved p T is true)).token? ':' rest =
      some (front rest q.move (.value :: t :: .key :: (rolled .blockMappingStart p.column T is).1)
        (rolled .blockMappingStart p.column T is).2 false) := by
  have hvalue (s : Scanner) : s.token? ':' rest = s.value? := by
    simp [token?, atDocumentMark, hrest]
  have hkey : (front (':' :: rest) q (t :: T) is false (saved p T is true)).insert T.length .key =
      front (':' :: rest) q (t :: .key :: T) is false (saved p T is true) := by
    simp [insert, front]
  have hroll :
      (front (':' :: rest) q (t :: .key :: T) is false (saved p T is true)).roll p.column T.length
        .blockMappingStart =
      front (':' :: rest) q (t :: .key :: (rolled .blockMappingStart p.column T is).1)
        (rolled .blockMappingStart p.column T is).2 false (saved p T is true) :=
    roll_front _ _ [t, .key]
  have hcandidate : (front (':' :: rest) q (t :: T) is false (saved p T is true)).candidate? =
      some ⟨is.head? == some p.column, T.length, p⟩ := rfl
  rw [hvalue, value?, hcandidate]
  simp only [hkey, hroll]
  rfl

/-- A short key and its colon, the first of a mapping or not. -/
theorem run_key (hs : isShortKey s = true) (hn : 0 < n) :
    ∃ c cs, (writeText n s).dropLast = c :: cs ∧
      ∀ {rest T is} {p : Place}, atGap rest = true → (∀ i ∈ is.head?, i ≤ p.column) → ∀ steps,
        (front (c :: (cs ++ ':' :: rest)) p T is true).run (steps + 2) =
          (front rest (p.move (cs.length + 2)) (.value :: .scalar (Style.ofText s) s :: .key ::
            (rolled .blockMappingStart p.column T is).1) (rolled .blockMappingStart p.column T is).2
            false).run steps := by
  obtain ⟨c, cs, hcs, hvisible, hnear, htoken⟩ := exists_isKeyText hs hn
  refine ⟨c, cs, hcs, fun {rest T is p} hrest his steps => ?_⟩
  have hfresh : ∀ k ∈ saved p T is true, k.isStale (p.move (cs.length + 1)) = false := by
    rintro _ ⟨⟩
    simp [Candidate.isStale]
    omega
  have hahead : ∀ i ∈ is.head?, i ≤ (p.move (cs.length + 1)).column := fun i hi =>
    (his i hi).trans (Nat.le_add_right ..)
  have hcolon : (front (':' :: rest) (p.move (cs.length + 1)) (.scalar (Style.ofText s) s :: T) is
      false (saved p T is true)).token? ':' rest =
      some (front rest (p.move (cs.length + 2)) (.value :: .scalar (Style.ofText s) s :: .key ::
        (rolled .blockMappingStart p.column T is).1) (rolled .blockMappingStart p.column T is).2
        false) := token?_colon_key hrest
  rw [run_succ (settle?_ahead (isAhead_cons hvisible) his (by simp)) rfl (htoken hrest his),
    run_succ (settle?_ahead (isAhead_cons (by decide)) hahead hfresh) rfl hcolon]

theorem isAhead_key (hs : isShortKey s = true) (hn : 0 < n) :
    IsAhead ((writeText n s).dropLast ++ rest) := by
  obtain ⟨c, cs, hcs, htext⟩ := exists_isKeyText hs hn
  rw [hcs]
  exact isAhead_cons htext.visible

/-- **A short key yields the key and leads to its value.** -/
theorem Yields.key (hs : isShortKey s = true) (hn : 0 < n)
    (hrest : atGap rest = true)
    (h : ∀ q : Place, p.column < q.column →
      Yields (front rest q (.value :: .scalar (Style.ofText s) s :: .key :: T) (p.column :: is)
        false) ts) :
    Yields (front ((writeText n s).dropLast ++ ':' :: rest) p T (p.column :: is) true) ts := by
  obtain ⟨c, cs, hcs, hrun⟩ := run_key hs hn
  have hcolumn : p.column < (p.move (cs.length + 2)).column := by
    simp
  rw [hcs]
  refine (h _ hcolumn).of_run 2 (by simp [front]) fun steps => ?_
  rw [List.cons_append, hrun hrest (by simp), rolled_self]

theorem Yields.roll_key (hs : isShortKey s = true) (hn : 0 < n)
    (hrest : atGap rest = true) (his : Deeper p.column is)
    (h : Yields (front ((writeText n s).dropLast ++ ':' :: rest) p (.blockMappingStart :: T)
      (p.column :: is) true) ts) :
    Yields (front ((writeText n s).dropLast ++ ':' :: rest) p T is true) ts := by
  obtain ⟨c, cs, hcs, hrun⟩ := run_key hs hn
  rw [hcs] at h ⊢
  refine h.of_run_eq 2 rfl (by simp [front]; omega) fun steps => ?_
  rw [List.cons_append, hrun hrest (fun i hi => (his i hi).le), hrun hrest (by simp),
    rolled_of_lt his, rolled_self]

end Scanner
end Yaml
end ClusterSync
