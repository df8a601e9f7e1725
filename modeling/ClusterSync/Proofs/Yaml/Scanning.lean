/-
# How the scanner goes through written text

The scanner takes one step for each token and accumulates what it has found. `Yields s ts` says
that from `s` on it reads the text to its end, and then has all of `ts`, those found before
included. So a lemma about a piece of text goes backwards: what follows from the scanner behind
the piece follows from the scanner in front of it.

Between tokens nothing is left to be remembered but the columns of the open collections
(`front`). White space, line ends and the margin of a line are passed over (`Yields.spaces`,
`Yields.line`), a lesser column ends collections (`Yields.close`), and a dash, a question mark
or a key begins one where it stands further in (`rolled`). Whether it does so a moment earlier
makes no difference (`Yields.roll_dash`, `Yields.roll_question`, `Yields.roll_key`). A text that
no colon has shown to be a key is forgotten at the line end behind it (`Yields.forget`).
-/

import ClusterSync.Proofs.Yaml.Unquoted
import ClusterSync.Yaml.Scanner

namespace ClusterSync
namespace Yaml

namespace Scanner

/-- A scanner between two tokens outside of flow collections. `key` is the text in front of it
that a colon would show to be a key. -/
def front (text : List Char) (place : Place) (tokens : List Token) (indents : List Nat)
    (allowed : Bool) (key : Option Candidate := none) : Scanner :=
  { cursor := ⟨text, place⟩, tokens, indents, keyAllowed := allowed, candidates := [key] }

/-- From here on the text is read to its end and yields these tokens in all. -/
def Yields (s : Scanner) (ts : List Token) : Prop :=
  ∀ steps, s.cursor.rest.length < steps → s.run steps = (ts, true)

variable {s s' : Scanner} {ts : List Token} {text rest tail : List Char} {p q : Place}
  {T : List Token} {is : List Nat} {allowed : Bool} {c : Char}

/-! ### Steps -/

/-- What the scanner does next depends on what it has settled only. -/
theorem run_of_settle? {steps : Nat} (h : s.settle? = s'.settle?)
    (hrun : s'.run steps = (ts, true)) : s.run steps = (ts, true) := by
  cases steps with
  | zero => simp [run] at hrun
  | succ steps =>
    rw [run] at hrun ⊢
    rw [h]
    cases hsettle : s'.settle? with
    | none => simp [hsettle] at hrun
    | some ahead =>
      simp only [hsettle] at hrun ⊢
      split at hrun
      · split at hrun
        · exact hrun
        · simp at hrun
      · split at hrun
        · exact hrun
        · simp at hrun

theorem Yields.of_settle? (h : s.settle? = s'.settle?)
    (hlength : s'.cursor.rest.length ≤ s.cursor.rest.length) (hs : Yields s' ts) : Yields s ts :=
  fun _ hsteps => run_of_settle? h (hs _ (Nat.lt_of_le_of_lt hlength hsteps))

/-- One token. -/
theorem run_succ {next : Scanner} (hsettle : s.settle? = some s) (hrest : s.cursor.rest = c :: rest)
    (htoken : s.token? c rest = some next) (steps : Nat) : s.run (steps + 1) = next.run steps := by
  rw [run, hsettle]
  simp [hrest, htoken]

/-- Some tokens. -/
theorem Yields.of_run (h : Yields s' ts) (n : Nat)
    (hlength : s'.cursor.rest.length + n ≤ s.cursor.rest.length)
    (hrun : ∀ steps, s.run (steps + n) = s'.run steps) : Yields s ts := by
  intro steps hsteps
  obtain ⟨more, rfl⟩ : ∃ more, steps = more + n := ⟨steps - n, by omega⟩
  rw [hrun]
  exact h more (by omega)

theorem Yields.token {next : Scanner} (hsettle : s.settle? = some s)
    (hrest : s.cursor.rest = c :: rest) (htoken : s.token? c rest = some next)
    (hlength : next.cursor.rest.length ≤ rest.length) (h : Yields next ts) : Yields s ts :=
  h.of_run 1 (by simpa [hrest] using hlength) (run_succ hsettle hrest htoken)

/-- Two scanners in front of a text that come to find the same go on alike. -/
theorem Yields.of_run_eq (h : Yields s' ts) (n : Nat) (hrest : s.cursor.rest = s'.cursor.rest)
    (hlength : n ≤ s.cursor.rest.length) (hrun : ∀ steps, s.run (steps + n) = s'.run (steps + n)) :
    Yields s ts := by
  intro steps hsteps
  obtain ⟨more, rfl⟩ : ∃ more, steps = more + n := ⟨steps - n, by omega⟩
  rw [hrun]
  exact h _ (hrest ▸ hsteps)

/-! ### Between tokens -/

theorem skipGap_ahead {cs : List Char} (h : IsAhead cs) :
    skipGap false allowed false p cs = (⟨cs, p⟩, allowed) := by
  obtain _ | ⟨c, cs⟩ := cs
  · rfl
  · obtain ⟨hspace, hbreak, hreturn, hcomment, hmark⟩ := isVisible_iff.1 (h c rfl)
    rw [skipGap]
    · simp [hspace, hbreak, hcomment, hmark]
    · exact fun _ h _ => hreturn h

theorem skipGap_spaces (n : Nat) (cs : List Char) :
    skipGap false allowed false p (spaces n ++ cs) = skipGap false allowed false (p.move n) cs := by
  induction n generalizing p with
  | zero => rfl
  | succ n ih =>
    rw [spaces, List.replicate_succ, List.cons_append, skipGap, ← spaces]
    · simpa [isBreak, Place.move_move, Nat.add_comm] using ih (p := p.move)
    · exact fun _ h _ => absurd h (by decide)

theorem skipGap_newline (cs : List Char) :
    skipGap false allowed false p ('\n' :: cs) = skipGap false true false p.nextLine cs := by
  rw [skipGap]
  · simp [isBreak]
  · exact fun _ h _ => absurd h (by decide)

/-- Where white space leads to is settled, if no text that may be a key is remembered, or one on
an earlier line that need not be a key. -/
theorem settle?_front {key : Option Candidate} {cs : List Char} {b : Bool}
    (hskip : skipGap false allowed false p text = (⟨cs, q⟩, b))
    (hkey : ∀ k ∈ key, k.required = false ∧ k.place.line < q.line) :
    (front text p T is allowed key).settle? =
      some ((front cs q T is b).unroll (some q.column)) := by
  have hstale : dropStale?
      { front text p T is allowed key with cursor := ⟨cs, q⟩, keyAllowed := b } =
      some (front cs q T is b) := by
    cases key with
    | none => simp [dropStale?, front]
    | some k =>
      obtain ⟨hrequired, hline⟩ := hkey k rfl
      simp [dropStale?, front, hrequired, Candidate.isStale, hline]
  have hflow : (front text p T is allowed key).inFlow = false := rfl
  have hcursor : (front text p T is allowed key).cursor = ⟨text, p⟩ := rfl
  have hallowed : (front text p T is allowed key).keyAllowed = allowed := rfl
  simp only [settle?, hflow, hcursor, hallowed, hskip, hstale, Option.map_some]
  rfl

/-- A token that stands where it is read, in no collection further in, ends none. -/
theorem settle?_ahead {key : Option Candidate} (htext : IsAhead text)
    (his : ∀ n ∈ is.head?, n ≤ p.column) (hkey : ∀ k ∈ key, k.isStale p = false) :
    (front text p T is allowed key).settle? = some (front text p T is allowed key) := by
  have hskip : skipGap false allowed false p text = (⟨text, p⟩, allowed) := skipGap_ahead htext
  have hstale : dropStale? (front text p T is allowed key) =
      some (front text p T is allowed key) := by
    cases key with
    | none => simp [dropStale?, front]
    | some k => simp [dropStale?, front, hkey k rfl]
  have hunroll : (front text p T is allowed key).unroll (some p.column) =
      front text p T is allowed key := by
    obtain _ | ⟨n, is⟩ := is
    · rfl
    · simp [unroll, unrollTo, front, inFlow, Nat.not_lt.2 (his n rfl)]
  have hflow : (front text p T is allowed key).inFlow = false := rfl
  have hcursor : (front text p T is allowed key).cursor = ⟨text, p⟩ := rfl
  have hallowed : (front text p T is allowed key).keyAllowed = allowed := rfl
  simp only [settle?, hflow, hcursor, hallowed, hskip]
  exact congrArg (Option.map _) hstale |>.trans (congrArg some hunroll)

/-- Two places between tokens are the same to the scanner if white space leads to the same. -/
theorem Yields.skip {key : Option Candidate} {allowed' : Bool} {text' : List Char}
    {p' : Place} {cs : List Char} {b : Bool}
    (hskip : skipGap false allowed false p text = (⟨cs, q⟩, b))
    (hskip' : skipGap false allowed' false p' text' = (⟨cs, q⟩, b))
    (hkey : ∀ k ∈ key, k.required = false ∧ k.place.line < q.line)
    (hlength : text'.length ≤ text.length) (h : Yields (front text' p' T is allowed') ts) :
    Yields (front text p T is allowed key) ts :=
  h.of_settle? ((settle?_front hskip hkey).trans (settle?_front hskip' (by simp)).symm) hlength

/-- Spaces are passed over. -/
theorem Yields.spaces {n : Nat} (h : Yields (front text (p.move n) T is allowed) ts) :
    Yields (front (Yaml.spaces n ++ text) p T is allowed) ts :=
  h.skip (skipGap_spaces n text) rfl (by simp) (by simp)

/-- A line end and the margin of the next line are passed over, and a key may begin there. It is
forgotten that a text in front of the line end might have been a key. -/
theorem Yields.line {n : Nat} {key : Option Candidate} (htext : IsAhead text)
    (hkey : ∀ k ∈ key, k.required = false ∧ k.place.line ≤ p.line)
    (h : Yields (front text (p.nextLine.move n) T is true) ts) :
    Yields (front ('\n' :: (Yaml.spaces n ++ text)) p T is allowed key) ts := by
  refine h.skip (q := p.nextLine.move n) ?_ (skipGap_ahead htext) ?_ (by simp; omega)
  · rw [skipGap_newline, skipGap_spaces, skipGap_ahead htext]
  · exact fun k hk => ⟨(hkey k hk).1, Nat.lt_succ_of_le (hkey k hk).2⟩

/-- The same where the line end has been read with the text. -/
theorem Yields.forget {key : Option Candidate} (htext : IsAhead text)
    (hkey : ∀ k ∈ key, k.required = false ∧ k.place.line < p.line)
    (h : Yields (front text p T is allowed) ts) : Yields (front text p T is allowed key) ts :=
  h.skip (skipGap_ahead htext) (skipGap_ahead htext) hkey (le_refl _)

/-- A token at a lesser column ends a collection. -/
theorem Yields.close {n : Nat} (htext : IsAhead text) (hn : p.column < n)
    (h : Yields (front text p (.blockEnd :: T) is allowed) ts) :
    Yields (front text p T (n :: is) allowed) ts := by
  have hsettle : (front text p T (n :: is) allowed).settle? =
      (front text p (.blockEnd :: T) is allowed).settle? := by
    rw [settle?_front (skipGap_ahead htext) (by simp),
      settle?_front (skipGap_ahead htext) (by simp)]
    simp [unroll, unrollTo, front, inFlow, hn]
  exact h.of_settle? hsettle (le_refl _)

/-- The end of the text ends the outermost collection. -/
theorem yields_end :
    Yields (front [] p T [0] allowed) (T.reverse ++ [.blockEnd, .streamEnd]) := by
  intro steps hsteps
  obtain _ | steps := steps
  · simp at hsteps
  · rw [run, settle?_ahead (by simp [IsAhead]) (by simp) (by simp)]
    simp [front, unroll, unrollTo, inFlow, dropCandidate?, candidate?, setCandidate, push]

/-! ### Dashes, question marks and colons -/

/-- Is the column further in than all open collections? -/
def Deeper (column : Nat) (is : List Nat) : Prop := ∀ n ∈ is.head?, n < column

/-- The tokens and the columns once a collection has begun at a column, if it is further in. -/
def rolled (start : Token) (column : Nat) (T : List Token) (is : List Nat) :
    List Token × List Nat :=
  if is.head?.all (· < column) then (start :: T, column :: is) else (T, is)

theorem rolled_of_lt {start : Token} {column : Nat} (h : Deeper column is) :
    rolled start column T is = (start :: T, column :: is) := by
  refine if_pos ?_
  cases hhead : is.head? with
  | none => rfl
  | some n => simpa using h n hhead

@[simp] theorem rolled_self (start : Token) (column : Nat) (T : List Token) (is : List Nat) :
    rolled start column T (column :: is) = (T, column :: is) := if_neg (by simp)

/-- A collection begins behind the tokens so far, or in front of the last ones of them. -/
theorem roll_front {key : Option Candidate} (start : Token) (column : Nat) (us : List Token) :
    (front text p (us ++ T) is allowed key).roll column T.length start =
      front text p (us ++ (rolled start column T is).1) (rolled start column T is).2 allowed
        key := by
  have hinsert : (us ++ T).insertIdx ((us ++ T).length - T.length) start = us ++ start :: T := by
    rw [List.length_append, Nat.add_sub_cancel]
    induction us with
    | nil => rfl
    | cons u us ih => simpa using ih
  have hdeeper : (front text p (us ++ T) is allowed key).isDeeper column =
      is.head?.all (· < column) := by
    cases is <;> rfl
  simp only [roll, hdeeper, rolled]
  split_ifs <;> simp_all [front, insert, inFlow]

/-- A dash begins an item, the first one a sequence as well. -/
theorem token?_dash : (front ('-' :: ' ' :: rest) p T is true).token? '-' (' ' :: rest) =
    some (front (' ' :: rest) p.move (.blockEntry :: (rolled .blockSequenceStart p.column T is).1)
      (rolled .blockSequenceStart p.column T is).2 true) := by
  have htoken : (front ('-' :: ' ' :: rest) p T is true).token? '-' (' ' :: rest) =
      blockEntry? (front ('-' :: ' ' :: rest) p T is true) := by
    simp [token?, atDocumentMark, atGap, isSpace]
  rw [htoken, blockEntry?, if_neg (by simp [front])]
  exact congrArg (fun s => (dropCandidate? s).map _) (roll_front _ _ [])

/-- A question mark begins a key, the first one a mapping as well. -/
theorem token?_question : (front ('?' :: ' ' :: rest) p T is true).token? '?' (' ' :: rest) =
    some (front (' ' :: rest) p.move (.key :: (rolled .blockMappingStart p.column T is).1)
      (rolled .blockMappingStart p.column T is).2 true) := by
  have htoken : (front ('?' :: ' ' :: rest) p T is true).token? '?' (' ' :: rest) =
      (front ('?' :: ' ' :: rest) p T is true).key? := by
    simp [token?, atDocumentMark, atGap, isSpace]
  rw [htoken, key?, if_neg (by simp [front])]
  exact congrArg (fun s => (dropCandidate? s).map _) (roll_front _ _ [])

/-- A colon at the column of a mapping begins the value of a long key. -/
theorem token?_colon :
    (front (':' :: ' ' :: rest) p T (p.column :: is) true).token? ':' (' ' :: rest) =
    some (front (' ' :: rest) p.move (.value :: T) (p.column :: is) true) := by
  have htoken : (front (':' :: ' ' :: rest) p T (p.column :: is) true).token? ':' (' ' :: rest) =
      (front (':' :: ' ' :: rest) p T (p.column :: is) true).value? := by
    simp [token?, atDocumentMark, atGap, isSpace]
  rw [htoken]
  simp [value?, front, candidate?, inFlow, roll, isDeeper, pushAt, Cursor.column, Cursor.next]

theorem isAhead_cons (h : isVisible c = true) : IsAhead (c :: text) := by
  rintro d ⟨⟩
  exact h

theorem Yields.dash
    (h : Yields (front (' ' :: rest) p.move (.blockEntry :: T) (p.column :: is) true) ts) :
    Yields (front ('-' :: ' ' :: rest) p T (p.column :: is) true) ts := by
  refine h.token (settle?_ahead (isAhead_cons (by decide)) (by simp) (by simp)) rfl ?_ (le_refl _)
  rw [token?_dash, rolled_self]

theorem Yields.question
    (h : Yields (front (' ' :: rest) p.move (.key :: T) (p.column :: is) true) ts) :
    Yields (front ('?' :: ' ' :: rest) p T (p.column :: is) true) ts := by
  refine h.token (settle?_ahead (isAhead_cons (by decide)) (by simp) (by simp)) rfl ?_ (le_refl _)
  rw [token?_question, rolled_self]

theorem Yields.colon
    (h : Yields (front (' ' :: rest) p.move (.value :: T) (p.column :: is) true) ts) :
    Yields (front (':' :: ' ' :: rest) p T (p.column :: is) true) ts :=
  h.token (settle?_ahead (isAhead_cons (by decide)) (by simp) (by simp)) rfl token?_colon
    (le_refl _)

theorem Yields.roll_dash (his : Deeper p.column is)
    (h : Yields
      (front ('-' :: ' ' :: rest) p (.blockSequenceStart :: T) (p.column :: is) true) ts) :
    Yields (front ('-' :: ' ' :: rest) p T is true) ts := by
  have hahead : IsAhead ('-' :: ' ' :: rest) := isAhead_cons (by decide)
  refine h.of_run_eq 1 rfl (Nat.succ_pos _) fun steps => ?_
  rw [run_succ (settle?_ahead hahead (fun n hn => (his n hn).le) (by simp)) rfl token?_dash,
    run_succ (settle?_ahead hahead (by simp) (by simp)) rfl token?_dash, rolled_of_lt his,
    rolled_self]

theorem Yields.roll_question (his : Deeper p.column is)
    (h : Yields (front ('?' :: ' ' :: rest) p (.blockMappingStart :: T) (p.column :: is) true) ts) :
    Yields (front ('?' :: ' ' :: rest) p T is true) ts := by
  have hahead : IsAhead ('?' :: ' ' :: rest) := isAhead_cons (by decide)
  refine h.of_run_eq 1 rfl (Nat.succ_pos _) fun steps => ?_
  rw [run_succ (settle?_ahead hahead (fun n hn => (his n hn).le) (by simp)) rfl token?_question,
    run_succ (settle?_ahead hahead (by simp) (by simp)) rfl token?_question, rolled_of_lt his,
    rolled_self]

end Scanner
end Yaml
end ClusterSync
