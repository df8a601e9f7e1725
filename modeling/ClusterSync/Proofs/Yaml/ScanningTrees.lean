/-
# The tokens of a written tree

A tree is written so that its tokens are known beforehand (`Tree.tokens`): those that begin and
end its collections stand around those of its items and entries, and a sequence below a short key
has neither (`loose`). The proof goes along the writing, with the scanner in the column of the
collection that is being written (`yields_write`, `yields_writeBelow`, `yields_items`,
`yields_entries`). So the tokens of a document are those of its tree (`tokensOf_document`).

The words of a tree have to be such as can stand without quotes (`Tree.HasWords`).
-/

import ClusterSync.Proofs.Yaml.ScanningTexts
import ClusterSync.Yaml.Tree

namespace ClusterSync
namespace Yaml

namespace Tree

mutual

/-- Can every word of the tree stand without quotes? -/
def HasWords : Tree → Prop
  | word s => s.toList ≠ [] ∧ allowsPlain s.toList = true
  | text _ => True
  | sequence items => ItemsHaveWords items
  | mapping entries => EntriesHaveWords entries

def ItemsHaveWords : List Tree → Prop
  | [] => True
  | item :: items => HasWords item ∧ ItemsHaveWords items

def EntriesHaveWords : List (String × Tree) → Prop
  | [] => True
  | (_, value) :: entries => HasWords value ∧ EntriesHaveWords entries

end

mutual

/-- The tokens of a tree. A sequence in the column of the key above it is `loose`. -/
def tokens (loose : Bool) : Tree → List Token
  | word s => [.scalar .plain s]
  | text s => [.scalar (Style.ofText s) s]
  | sequence [] => [.flowSequenceStart, .flowSequenceEnd]
  | mapping [] => [.flowMappingStart, .flowMappingEnd]
  | sequence items =>
    if loose then itemTokens items else .blockSequenceStart :: itemTokens items ++ [.blockEnd]
  | mapping entries => .blockMappingStart :: entryTokens entries ++ [.blockEnd]

def itemTokens : List Tree → List Token
  | [] => []
  | item :: items => .blockEntry :: tokens false item ++ itemTokens items

def entryTokens : List (String × Tree) → List Token
  | [] => []
  | (key, value) :: entries =>
    [.key, .scalar (Style.ofText key) key, .value] ++ tokens (isShortKey key) value ++
      entryTokens entries

end

/-- One entry of a mapping whose keys stand at a column. -/
def writeEntry (column : Nat) (key : String) (value : Tree) : List Char :=
  if isShortKey key then (writeText (column + 2) key).dropLast ++ ':' :: writeBelow column value
  else
    '?' :: ' ' :: writeText (column + 2) key ++ spaces column ++ ':' :: ' ' :: write column value

theorem writeEntries_cons (column : Nat) (key : String) (value : Tree)
    (entries : List (String × Tree)) : writeEntries column ((key, value) :: entries) =
      writeEntry column key value :: writeEntries column entries := by
  rw [writeEntries, writeEntry]

open Scanner

variable {ts : List Token} {rest tail : List Char} {p : Place} {T : List Token} {is : List Nat}
  {allowed : Bool} {k : Nat}

theorem atGap_writeBelow (column : Nat) (t : Tree) :
    atGap (t.writeBelow column ++ rest) = true := by
  cases t with
  | word s => rfl
  | text s => rfl
  | sequence items => cases items <;> rfl
  | mapping entries => cases entries <;> rfl

theorem exists_stack (column : Nat) (block : List Char) (blocks : List (List Char))
    (rest : List Char) : ∃ more, stack column (block :: blocks) ++ rest = block ++ more := by
  cases blocks with
  | nil => exact ⟨rest, rfl⟩
  | cons next blocks =>
    refine ⟨spaces column ++ stack column (next :: blocks) ++ rest, ?_⟩
    simp only [stack, List.append_assoc]

theorem isAhead_items {items : List Tree} {column : Nat} (hne : items ≠ []) :
    IsAhead (stack column (writeItems column items) ++ rest) := by
  obtain ⟨item, items, rfl⟩ := List.exists_cons_of_ne_nil hne
  obtain ⟨more, hmore⟩ := exists_stack column ('-' :: ' ' :: write column item)
    (writeItems column items) rest
  rw [writeItems, hmore]
  exact isAhead_cons (by decide)

theorem isAhead_entries {entries : List (String × Tree)} {column : Nat} (hne : entries ≠ []) :
    IsAhead (stack column (writeEntries column entries) ++ rest) := by
  obtain ⟨⟨key, value⟩, entries, rfl⟩ := List.exists_cons_of_ne_nil hne
  obtain ⟨more, hmore⟩ := exists_stack column (writeEntry column key value)
    (writeEntries column entries) rest
  rw [writeEntries_cons, hmore, writeEntry]
  split_ifs with hkey
  · rw [List.append_assoc]
    exact isAhead_key hkey (Nat.succ_pos _)
  · exact isAhead_cons (by decide)

/-! ### Entries and items -/

/-- The first item begins the sequence. -/
theorem yields_roll_items {items : List Tree} (hne : items ≠ []) (his : Deeper p.column is)
    (h : Yields (front (stack p.column (writeItems p.column items) ++ rest) p
      (.blockSequenceStart :: T) (p.column :: is) true) ts) :
    Yields (front (stack p.column (writeItems p.column items) ++ rest) p T is true) ts := by
  obtain ⟨item, items, rfl⟩ := List.exists_cons_of_ne_nil hne
  rw [writeItems] at h ⊢
  obtain ⟨more, hmore⟩ := exists_stack p.column ('-' :: ' ' :: write p.column item)
    (writeItems p.column items) rest
  rw [hmore] at h ⊢
  exact Yields.roll_dash his h

/-- The first entry begins the mapping. -/
theorem yields_roll_entries {entries : List (String × Tree)} (hne : entries ≠ [])
    (his : Deeper p.column is)
    (h : Yields (front (stack p.column (writeEntries p.column entries) ++ rest) p
      (.blockMappingStart :: T) (p.column :: is) true) ts) :
    Yields (front (stack p.column (writeEntries p.column entries) ++ rest) p T is true) ts := by
  obtain ⟨⟨key, value⟩, entries, rfl⟩ := List.exists_cons_of_ne_nil hne
  rw [writeEntries_cons] at h ⊢
  obtain ⟨more, hmore⟩ := exists_stack p.column (writeEntry p.column key value)
    (writeEntries p.column entries) rest
  rw [hmore, writeEntry] at h ⊢
  split_ifs at h ⊢ with hkey
  · rw [List.append_assoc] at h ⊢
    exact Yields.roll_key hkey (Nat.succ_pos _) (atGap_writeBelow _ _) his h
  · exact Yields.roll_question his h

/-- An entry yields its key and leads to its value. -/
theorem yields_entry {key : String} {value : Tree}
    (hbelow : isShortKey key = true → ∀ q : Place, p.column < q.column →
      Yields (front (writeBelow p.column value ++ rest) q
        (.value :: .scalar (Style.ofText key) key :: .key :: T) (p.column :: is) false) ts)
    (hwrite : isShortKey key = false → ∀ q : Place, q.column = p.column + 2 →
      Yields (front (write p.column value ++ rest) q
        (.value :: .scalar (Style.ofText key) key :: .key :: T) (p.column :: is) true) ts) :
    Yields (front (writeEntry p.column key value ++ rest) p T (p.column :: is) true) ts := by
  unfold writeEntry
  cases hkey : isShortKey key with
  | true =>
    rw [if_pos rfl, List.append_assoc]
    exact Yields.key hkey (Nat.succ_pos _) (atGap_writeBelow _ _) (hbelow hkey)
  | false =>
    specialize hwrite hkey
    simp only [Bool.false_eq_true, if_false, List.cons_append, List.append_assoc]
    refine Yields.question (Yields.spaces (n := 1) ?_)
    have hcolumn : p.column < (p.move.move 1).column := by
      rw [Place.column_move, Place.column_move]
      omega
    refine Yields.scalar hcolumn (le_refl _) (isAhead_cons (by decide)) fun q hq => ?_
    rw [← hq] at hwrite ⊢
    refine Yields.colon (Yields.spaces (n := 1) ?_)
    exact hwrite _ (by simp [Place.move_move])

mutual

theorem yields_write (t : Tree) (ht : t.HasWords) {tail : List Char} {p : Place} {T : List Token}
    {is : List Nat} {m k : Nat} (hp : p.column = m + 2) (hk : k ≤ m) (htail : IsAhead tail)
    (h : ∀ q : Place, q.column = k →
      Yields (front tail q ((t.tokens false).reverse ++ T) (m :: is) true) ts) :
    Yields (front (t.write m ++ (Yaml.spaces k ++ tail)) p T (m :: is) true) ts := by
  have hdeeper : Deeper p.column (m :: is) := by
    rintro _ ⟨⟩
    omega
  match t with
  | word s =>
    simp only [write, List.append_assoc, List.singleton_append]
    exact Yields.plain ht.2 ht.1 (by omega) hk htail h
  | text s => exact Yields.scalar (by omega) hk htail h
  | sequence [] =>
    exact Yields.brackets (by decide) (by decide) (fun s rest => (token?_bracket s rest).1)
      (fun s rest => (token?_bracket s rest).2.1) (by omega) htail h
  | mapping [] =>
    exact Yields.brackets (by decide) (by decide) (fun s rest => (token?_bracket s rest).2.2.1)
      (fun s rest => (token?_bracket s rest).2.2.2) (by omega) htail h
  | sequence (item :: items) =>
    have hne : item :: items ≠ [] := List.cons_ne_nil item items
    simp only [write, ← hp]
    refine yields_roll_items hne hdeeper ?_
    refine yields_items (item :: items) hne ht (by omega) htail fun q hq => ?_
    refine Yields.close htail (by omega) ?_
    simpa [tokens] using h q hq
  | mapping (entry :: entries) =>
    have hne : entry :: entries ≠ [] := List.cons_ne_nil entry entries
    simp only [write, ← hp]
    refine yields_roll_entries hne hdeeper ?_
    refine yields_entries (entry :: entries) hne ht (by omega) htail fun q hq => ?_
    refine Yields.close htail (by omega) ?_
    simpa [tokens] using h q hq

theorem yields_writeBelow (t : Tree) (ht : t.HasWords) {tail : List Char} {p : Place}
    {T : List Token} {is : List Nat} {m k : Nat} (hp : m < p.column) (hk : k ≤ m)
    (htail : IsAhead tail)
    (h : ∀ q : Place, q.column = k →
      Yields (front tail q ((t.tokens true).reverse ++ T) (m :: is) true) ts) :
    Yields (front (t.writeBelow m ++ (Yaml.spaces k ++ tail)) p T (m :: is) false) ts := by
  match t with
  | word s =>
    simp only [writeBelow, List.append_assoc, List.cons_append, List.nil_append]
    refine Yields.spaces (n := 1) ?_
    exact Yields.plain ht.2 ht.1 (Nat.lt_succ_of_lt hp) hk htail h
  | text s =>
    refine Yields.spaces (n := 1) ?_
    exact Yields.scalar (Nat.lt_succ_of_lt hp) hk htail h
  | sequence [] =>
    refine Yields.spaces (n := 1) ?_
    exact Yields.brackets (by decide) (by decide) (fun s rest => (token?_bracket s rest).1)
      (fun s rest => (token?_bracket s rest).2.1) (Nat.lt_succ_of_lt hp) htail h
  | mapping [] =>
    refine Yields.spaces (n := 1) ?_
    exact Yields.brackets (by decide) (by decide) (fun s rest => (token?_bracket s rest).2.2.1)
      (fun s rest => (token?_bracket s rest).2.2.2) (Nat.lt_succ_of_lt hp) htail h
  | sequence (item :: items) =>
    have hne : item :: items ≠ [] := List.cons_ne_nil item items
    obtain ⟨q, hq, rfl⟩ : ∃ q : Place, q = p.nextLine.move m ∧ q.column = m :=
      ⟨_, rfl, by simp [Place.nextLine]⟩
    simp only [writeBelow, List.append_assoc, List.cons_append]
    refine Yields.line (isAhead_items hne) (by simp) ?_
    rw [← hq]
    exact yields_items (item :: items) hne ht hk htail h
  | mapping (entry :: entries) =>
    have hne : entry :: entries ≠ [] := List.cons_ne_nil entry entries
    obtain ⟨q, hq, hcolumn⟩ : ∃ q : Place, q = p.nextLine.move (m + 2) ∧ m + 2 = q.column :=
      ⟨_, rfl, by simp [Place.nextLine]⟩
    have hdeeper : Deeper q.column (m :: is) := by
      rintro _ ⟨⟩
      omega
    simp only [writeBelow, List.append_assoc, List.cons_append]
    refine Yields.line (isAhead_entries hne) (by simp) ?_
    rw [← hq, hcolumn]
    refine yields_roll_entries hne hdeeper ?_
    refine yields_entries (entry :: entries) hne ht (by omega) htail fun q hq => ?_
    refine Yields.close htail (by omega) ?_
    simpa [tokens] using h q hq

theorem yields_items (items : List Tree) (hne : items ≠ []) (ht : ItemsHaveWords items)
    {tail : List Char} {p : Place} {T : List Token} {is : List Nat} {k : Nat}
    (hk : k ≤ p.column) (htail : IsAhead tail)
    (h : ∀ q : Place, q.column = k →
      Yields (front tail q ((itemTokens items).reverse ++ T) (p.column :: is) true) ts) :
    Yields (front (stack p.column (writeItems p.column items) ++ (Yaml.spaces k ++ tail)) p T
      (p.column :: is) true) ts := by
  match items with
  | [] => exact absurd rfl hne
  | item :: items =>
    -- behind the item stands what the next one needs
    obtain ⟨k', tail', hrest, hk', htail', hnext⟩ : ∃ k' tail',
        stack p.column (writeItems p.column (item :: items)) ++ (Yaml.spaces k ++ tail) =
          '-' :: ' ' :: write p.column item ++ (Yaml.spaces k' ++ tail') ∧ k' ≤ p.column ∧
        IsAhead tail' ∧ ∀ q : Place, q.column = k' →
          Yields (front tail' q ((itemTokens [item]).reverse ++ T) (p.column :: is) true) ts := by
      match items with
      | [] => exact ⟨k, tail, rfl, hk, htail, h⟩
      | next :: items =>
        have hne : next :: items ≠ [] := List.cons_ne_nil next items
        refine ⟨p.column, stack p.column (writeItems p.column (next :: items)) ++
          (Yaml.spaces k ++ tail), ?_, le_refl _, isAhead_items hne, fun q hq => ?_⟩
        · simp only [writeItems, stack, List.append_assoc]
        · rw [← hq] at hk h ⊢
          refine yields_items (next :: items) hne ht.2 hk htail fun q' hq' => ?_
          simpa [itemTokens] using h q' hq'
    rw [hrest]
    refine Yields.dash (Yields.spaces (n := 1) ?_)
    refine yields_write item ht.1 (by simp [Place.move_move]) hk' htail' fun q hq => ?_
    simpa [itemTokens] using hnext q hq

theorem yields_entries (entries : List (String × Tree)) (hne : entries ≠ [])
    (ht : EntriesHaveWords entries) {tail : List Char} {p : Place} {T : List Token} {is : List Nat}
    {k : Nat} (hk : k ≤ p.column) (htail : IsAhead tail)
    (h : ∀ q : Place, q.column = k →
      Yields (front tail q ((entryTokens entries).reverse ++ T) (p.column :: is) true) ts) :
    Yields (front (stack p.column (writeEntries p.column entries) ++ (Yaml.spaces k ++ tail)) p T
      (p.column :: is) true) ts := by
  match entries with
  | [] => exact absurd rfl hne
  | (key, value) :: entries =>
    obtain ⟨k', tail', hrest, hk', htail', hnext⟩ : ∃ k' tail',
        stack p.column (writeEntries p.column ((key, value) :: entries)) ++
          (Yaml.spaces k ++ tail) =
          writeEntry p.column key value ++ (Yaml.spaces k' ++ tail') ∧ k' ≤ p.column ∧
        IsAhead tail' ∧ ∀ q : Place, q.column = k' →
          Yields (front tail' q ((entryTokens [(key, value)]).reverse ++ T) (p.column :: is) true)
            ts := by
      match entries with
      | [] => exact ⟨k, tail, by rw [writeEntries_cons]; rfl, hk, htail, h⟩
      | next :: entries =>
        have hne : next :: entries ≠ [] := List.cons_ne_nil next entries
        refine ⟨p.column, stack p.column (writeEntries p.column (next :: entries)) ++
          (Yaml.spaces k ++ tail), ?_, le_refl _, isAhead_entries hne, fun q hq => ?_⟩
        · rw [writeEntries_cons]
          obtain ⟨key', value'⟩ := next
          simp only [writeEntries_cons, stack, List.append_assoc]
        · rw [← hq] at hk h ⊢
          refine yields_entries (next :: entries) hne ht.2 hk htail fun q' hq' => ?_
          simpa [entryTokens] using h q' hq'
    rw [hrest]
    refine yields_entry (fun hkey q hq => ?_) (fun hkey q hq => ?_)
    · refine yields_writeBelow value ht.1 hq hk' htail' fun q' hq' => ?_
      simpa [entryTokens, hkey] using hnext q' hq'
    · refine yields_write value ht.1 hq hk' htail' fun q' hq' => ?_
      simpa [entryTokens, hkey] using hnext q' hq'

end

end Tree

/-! ### Every character may stand in a document -/

theorem isReadable_of_isPrinted {c : Char} (h : isPrinted c = true) : isReadable c = true := by
  have hvalid : c.toNat < 0xD800 ∨ 0xDFFF < c.toNat ∧ c.toNat < 0x110000 := c.valid
  have hline (hc : c.toNat = 0x0A) : c = '\n' := Char.toNat_inj.1 hc
  simp only [isPrinted, Bool.or_eq_true, Bool.and_eq_true, decide_eq_true_eq, beq_iff_eq] at h
  by_contra hnot
  simp only [isReadable, Bool.or_eq_true, Bool.and_eq_true, decide_eq_true_eq, beq_iff_eq,
    not_or] at hnot
  rcases h with (hc | hc) | hc
  · exact hnot.1.1.1.1.1.1.2 (hline hc)
  · omega
  · omega

theorem all_isReadable {cs : List Char} (h : ∀ c ∈ cs, isPrinted c = true) :
    cs.all isReadable = true :=
  List.all_eq_true.2 fun c hc => isReadable_of_isPrinted (h c hc)

theorem all_isReadable_of_allowsPlain {cs : List Char} (h : allowsPlain cs = true) :
    cs.all isReadable = true :=
  all_isReadable fun c hc => ((keptByPlain_of_allowsPlain h).printed c hc).1

theorem all_isReadable_spaces (n : Nat) : (spaces n).all isReadable = true := by
  refine List.all_eq_true.2 fun c hc => ?_
  rw [(List.mem_replicate.1 hc).2]
  decide

theorem all_isReadable_singleChars {indent : Nat} {fresh : Bool} {cs : List Char}
    (h : cs.all isReadable = true) : (singleChars indent fresh cs).all isReadable = true := by
  induction cs generalizing fresh with
  | nil => cases fresh <;> simp [singleChars, all_isReadable_spaces]
  | cons c cs ih =>
    rw [List.all_cons, Bool.and_eq_true] at h
    rw [singleChars]
    split_ifs <;> simp_all [all_isReadable_spaces]

theorem all_isReadable_literalChars {indent : Nat} {fresh : Bool} {cs : List Char}
    (h : cs.all isReadable = true) : (literalChars indent fresh cs).all isReadable = true := by
  induction cs generalizing fresh with
  | nil => cases fresh <;> rfl
  | cons c cs ih =>
    rw [List.all_cons, Bool.and_eq_true] at h
    rw [literalChars]
    split_ifs <;> simp_all [all_isReadable_spaces]

theorem all_isReadable_capitalHex (n width : Nat) : (capitalHex n width).all isReadable = true := by
  induction width generalizing n with
  | zero => rfl
  | succ width ih =>
    have hdigit (d : Nat) (hd : d < 16) : isReadable (capitalDigit d) = true := by
      interval_cases d <;> decide
    simp [capitalHex, ih, hdigit _ (Nat.mod_lt n (by decide))]

theorem all_isReadable_doubleChar (c : Char) : (doubleChar c).all isReadable = true := by
  unfold doubleChar
  split_ifs with hplain
  · simp only [Bool.and_eq_true] at hplain
    simpa using isReadable_of_isPrinted hplain.1.1.1
  · cases hletter : escapeLetter? c with
    | some letter =>
      have hletters : isReadable letter = true := by
        unfold escapeLetter? at hletter
        split at hletter <;> cases hletter <;> decide
      have hbackslash : isReadable '\\' = true := by decide
      simp [hletters, hbackslash]
    | none =>
      have hx : isReadable '\\' = true ∧ isReadable 'x' = true ∧ isReadable 'u' = true ∧
          isReadable 'U' = true := by decide
      simp only []
      split_ifs <;> simp [all_isReadable_capitalHex, hx]

theorem all_isReadable_writeText (n : Nat) (s : String) :
    (writeText n s).all isReadable = true := by
  have hline : isReadable '\n' = true := by decide
  have hsingle : isReadable '\'' = true := by decide
  have hdouble : isReadable '"' = true := by decide
  have hbar : isReadable '|' = true := by decide
  have hwritten := isWritten s
  generalize hstyle : Style.ofText s = style at hwritten
  simp only [writeText, hstyle]
  cases hwritten with
  | single hkept =>
    simp only [allowsSingle, Bool.and_eq_true, List.all_eq_true] at hkept
    simp [all_isReadable_singleChars (all_isReadable hkept.1.1), hline, hsingle]
  | double =>
    simp [List.all_flatMap, all_isReadable_doubleChar, hline, hdouble]
  | literal hkept =>
    simp only [allowsLiteral, Bool.and_eq_true, List.all_eq_true] at hkept
    have hhints : (literalHints s.toList).all isReadable = true := by
      rw [literalHints_eq]
      cases chompingOf s.toList.reverse <;> split_ifs <;> decide
    simp [all_isReadable_literalChars (all_isReadable hkept.1.1), hhints, hline, hbar]
  | plain hplain => simp [all_isReadable_of_allowsPlain hplain, hline]

namespace Tree

theorem all_isReadable_stack {m : Nat} {blocks : List (List Char)}
    (h : ∀ block ∈ blocks, block.all isReadable = true) :
    (stack m blocks).all isReadable = true := by
  fun_induction stack m blocks with
  | case1 => rfl
  | case2 block => exact h block (List.mem_singleton_self block)
  | case3 block rest hne ih =>
    rw [List.all_append, List.all_append, h block (List.mem_cons_self ..), all_isReadable_spaces,
      ih fun b hb => h b (List.mem_cons_of_mem _ hb)]
    rfl

mutual

theorem all_isReadable_write (m : Nat) (t : Tree) (ht : t.HasWords) :
    (t.write m).all isReadable = true := by
  match t with
  | word s =>
    rw [write, List.all_append, all_isReadable_of_allowsPlain ht.2]
    decide
  | text s => exact all_isReadable_writeText _ s
  | sequence [] => simp only [write]; decide
  | mapping [] => simp only [write]; decide
  | sequence (item :: items) =>
    exact all_isReadable_stack (all_isReadable_items _ (item :: items) ht)
  | mapping (entry :: entries) =>
    exact all_isReadable_stack (all_isReadable_entries _ (entry :: entries) ht)

theorem all_isReadable_writeBelow (m : Nat) (t : Tree) (ht : t.HasWords) :
    (t.writeBelow m).all isReadable = true := by
  have hspace : isReadable ' ' = true := by decide
  have hline : isReadable '\n' = true := by decide
  match t with
  | word s => simp [writeBelow, all_isReadable_of_allowsPlain ht.2, hspace, hline]
  | text s => simp [writeBelow, all_isReadable_writeText, hspace]
  | sequence [] => simp only [writeBelow]; decide
  | mapping [] => simp only [writeBelow]; decide
  | sequence (item :: items) =>
    simp [writeBelow, all_isReadable_stack (all_isReadable_items _ (item :: items) ht),
      all_isReadable_spaces, hline]
  | mapping (entry :: entries) =>
    simp [writeBelow, all_isReadable_stack (all_isReadable_entries _ (entry :: entries) ht),
      all_isReadable_spaces, hline]

theorem all_isReadable_items (m : Nat) (items : List Tree) (ht : ItemsHaveWords items) :
    ∀ block ∈ writeItems m items, block.all isReadable = true := by
  match items with
  | [] => simp [writeItems]
  | item :: items =>
    rw [writeItems, List.forall_mem_cons]
    refine ⟨?_, all_isReadable_items m items ht.2⟩
    rw [List.all_cons, List.all_cons, all_isReadable_write m item ht.1]
    decide

theorem all_isReadable_entries (m : Nat) (entries : List (String × Tree))
    (ht : EntriesHaveWords entries) :
    ∀ block ∈ writeEntries m entries, block.all isReadable = true := by
  match entries with
  | [] => simp [writeEntries]
  | (key, value) :: entries =>
    have hmarks : isReadable ' ' = true ∧ isReadable ':' = true ∧ isReadable '?' = true := by decide
    have hkey : ((writeText (m + 2) key).dropLast).all isReadable = true := by
      refine List.all_eq_true.2 fun c hc => ?_
      exact List.all_eq_true.1 (all_isReadable_writeText (m + 2) key) c (List.dropLast_subset _ hc)
    rw [writeEntries_cons, List.forall_mem_cons]
    refine ⟨?_, all_isReadable_entries m entries ht.2⟩
    unfold writeEntry
    split_ifs
    · simp [hkey, all_isReadable_writeBelow m value ht.1, hmarks]
    · simp [all_isReadable_writeText, all_isReadable_write m value ht.1,
        all_isReadable_spaces, hmarks]

end

open Scanner in
/-- **The tokens of a document are those of its tree.** -/
theorem tokensOf_document {entries : List (String × Tree)} (hne : entries ≠ [])
    (ht : EntriesHaveWords entries) :
    tokensOf (document (mapping entries)).toList =
      ((mapping entries).tokens false ++ [.streamEnd], true) := by
  obtain ⟨entry, entries, rfl⟩ := List.exists_cons_of_ne_nil hne
  have htext : (document (mapping (entry :: entries))).toList =
      stack 0 (writeEntries 0 (entry :: entries)) := String.toList_ofList
  have hyields : Yields
      (front (stack 0 (writeEntries 0 (entry :: entries)) ++ (spaces 0 ++ [])) {} [] [] true)
      ((mapping (entry :: entries)).tokens false ++ [.streamEnd]) := by
    refine yields_roll_entries (p := {}) hne (by simp [Deeper]) ?_
    refine yields_entries (p := {}) (entry :: entries) hne ht (le_refl _) (by simp [IsAhead])
      fun q hq => ?_
    have hend : Yields
        (front [] q ((entryTokens (entry :: entries)).reverse ++ [.blockMappingStart]) _ true) _ :=
      yields_end
    simpa [tokens] using hend
  rw [tokensOf, htext, if_pos (all_isReadable_stack (all_isReadable_entries 0 _ ht))]
  rw [List.append_nil, spaces, List.replicate_zero, List.append_nil] at hyields
  exact hyields _ (Nat.lt_succ_self _)

end Tree
end Yaml
end ClusterSync
