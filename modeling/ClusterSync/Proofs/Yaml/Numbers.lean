/-
# Numbers are read as they are written

A whole number is written in decimal digits with a minus in front or none, and a number with a
point in the fewest digits that read back, laid out in one of four ways. Reading puts the
digits together again (`readDigits?_ten`), moves the point into the exponent
(`readMantissa?_point`) and so finds the decimal number that was laid out, whichever way was
taken (`laysOut_positional`, `laysOut_scientific`). What is written for a number may stand without
quotes and means that number there (`isWord_int`, `isWord_float`): it is no truth value, no null
and no number of another kind.
-/

import Mathlib.Data.List.TakeWhile
import Mathlib.Tactic.IntervalCases
import ClusterSync.Proofs.Decimal.Shortest
import ClusterSync.Yaml.TextLayout

namespace ClusterSync
namespace Yaml

/-! ### Digits -/

theorem hexDigit?_of_isDigit {c : Char} (h : c.isDigit = true) :
    hexDigit? c = some (c.toNat - 0x30) ∧ c.toNat - 0x30 < 10 := by
  refine ⟨by simp [hexDigit?, h], ?_⟩
  simp only [Char.isDigit, Bool.and_eq_true, decide_eq_true_eq] at h
  have := UInt32.le_iff_toNat_le.1 h.2
  have : c.val.toNat ≤ 57 := this
  have : c.toNat = c.val.toNat := rfl
  omega

theorem ten_le_of_hexDigit? {c : Char} {d : Nat} (hc : c.isDigit = false)
    (h : hexDigit? c = some d) : 10 ≤ d := by
  have hle {a b : Char} (hab : a ≤ b) : a.toNat ≤ b.toNat := UInt32.le_iff_toNat_le.1 hab
  simp only [hexDigit?, hc, Bool.false_eq_true, if_false] at h
  split_ifs at h with hupper hlower
  · have := hle hupper.1
    have : 'A'.toNat = 65 := rfl
    have := Option.some.inj h
    omega
  · have := hle hlower.1
    have : 'a'.toNat = 97 := rfl
    have := Option.some.inj h
    omega

/-- The number that decimal digits make up. -/
theorem readDigits?_ten {cs : List Char} (hne : cs ≠ []) (h : ∀ c ∈ cs, c.isDigit = true) :
    readDigits? 10 cs = some (Nat.ofDigitChars 10 cs 0) := by
  simp only [readDigits?, List.isEmpty_iff, if_neg hne]
  generalize 0 = n
  clear hne
  induction cs generalizing n with
  | nil => rfl
  | cons c cs ih =>
    obtain ⟨hvalue, hlt⟩ := hexDigit?_of_isDigit (h c (List.mem_cons_self ..))
    simp only [List.foldl_cons, hvalue, if_pos hlt]
    exact ih (fun x hx => h x (List.mem_cons_of_mem _ hx)) _

/-- A fold that has failed stays so; it fails if it does at one of the elements. -/
theorem foldl_eq_none {α β : Type} {f : Option β → α → Option β} {as : List α} {a : α}
    (hnone : ∀ a, f none a = none) (hmem : a ∈ as) (ha : ∀ found, f found a = none)
    (found : Option β) : as.foldl f found = none := by
  have hfailed (as : List α) : as.foldl f none = none := by
    induction as with
    | nil => rfl
    | cons a as ih => rw [List.foldl_cons, hnone, ih]
  induction as generalizing found with
  | nil => cases hmem
  | cons b as ih =>
    rw [List.foldl_cons]
    rcases List.mem_cons.1 hmem with rfl | hmem
    · rw [ha, hfailed]
    · exact ih hmem _

/-- A character that is no decimal digit spoils a decimal number. -/
theorem readDigits?_ten_eq_none {cs : List Char} {c : Char} (hmem : c ∈ cs)
    (hc : c.isDigit = false) : readDigits? 10 cs = none := by
  simp only [readDigits?, List.isEmpty_iff, if_neg (List.ne_nil_of_mem hmem)]
  refine foldl_eq_none (fun _ => rfl) hmem (fun found => ?_) _
  split
  · next hd => rw [if_neg (not_lt.2 (ten_le_of_hexDigit? hc hd))]
  · rfl

/-- Zeros in front of digits count for nothing, behind them each for a factor of ten. -/
theorem ofDigitChars_zeros (cs : List Char) (before behind : Nat) :
    Nat.ofDigitChars 10 (List.replicate before '0' ++ cs ++ List.replicate behind '0') 0 =
      Nat.ofDigitChars 10 cs 0 * 10 ^ behind := by
  have hbefore (n : Nat) : Nat.ofDigitChars 10 (List.replicate n '0') 0 = 0 := by
    induction n with
    | zero => rfl
    | succ n ih => simpa [List.replicate_succ, Nat.ofDigitChars] using ih
  have hbehind (n init : Nat) :
      Nat.ofDigitChars 10 (List.replicate n '0') init = init * 10 ^ n := by
    induction n generalizing init with
    | zero => simp [Nat.ofDigitChars]
    | succ n ih =>
      have hstep : Nat.ofDigitChars 10 (List.replicate (n + 1) '0') init =
          Nat.ofDigitChars 10 (List.replicate n '0') (10 * init) := by
        simp [List.replicate_succ, Nat.ofDigitChars]
      rw [hstep, ih, Nat.pow_succ]
      ring
  rw [Nat.ofDigitChars_append, Nat.ofDigitChars_append, hbefore, hbehind]

/-- The digits of a positive number do not begin with a zero. -/
theorem head?_toDigits {n : Nat} (hn : 0 < n) : (Nat.toDigits 10 n).head? ≠ some '0' := by
  induction n using Nat.strongRecOn with
  | ind n ih =>
    rcases Nat.lt_or_ge n 10 with hlt | hge
    · rw [Nat.toDigits_of_lt_base hlt]
      interval_cases n <;> decide
    · rw [Nat.toDigits_of_base_le (by decide) hge,
        List.head?_append_of_ne_nil _ Nat.toDigits_ne_nil]
      exact ih (n / 10) (by omega) (by omega)

theorem isDigit_toDigits (n : Nat) : ∀ c ∈ Nat.toDigits 10 n, c.isDigit = true :=
  fun _ => Nat.isDigit_of_mem_toDigits (by decide) (by decide)

/-- Digits as they are written are read back. -/
theorem readDigits?_toDigits (n : Nat) : readDigits? 10 (Nat.toDigits 10 n) = some n := by
  rw [readDigits?_ten Nat.toDigits_ne_nil (isDigit_toDigits n),
    Nat.ofDigitChars_toDigits (by decide) (by decide)]

/-! ### Whole numbers -/

/-- A minus in front of a negative number. -/
def signChars (negative : Bool) : List Char := if negative then ['-'] else []

theorem mem_signChars {negative : Bool} {c : Char} (h : c ∈ signChars negative) : c = '-' := by
  unfold signChars at h
  split_ifs at h
  · exact List.mem_singleton.1 h
  · cases h

theorem toList_toString_int (i : Int) :
    (toString i).toList = signChars (decide (i < 0)) ++ Nat.toDigits 10 i.natAbs := by
  cases i with
  | ofNat n =>
    have h : ¬((n : Int) < 0) := by omega
    change (Nat.repr n).toList = _
    simp [Nat.repr, signChars, h]
  | negSucc n =>
    change ("-" ++ Nat.repr (n + 1)).toList = _
    simp [Nat.repr, signChars, Int.negSucc_lt_zero]

theorem readBased?_eq_none {cs : List Char}
    (h : ∀ c ∈ cs.tail.head?, c ≠ 'x' ∧ c ≠ 'o' ∧ c ≠ 'b') : readBased? cs = none := by
  unfold readBased?
  split <;> simp_all

/-- A text that begins with a digit, behind a minus or not, is read in base ten. -/
theorem readInt?_eq {negative : Bool} {d : Char} {rest : List Char} (hd : d.isDigit = true)
    (hsecond : ∀ c ∈ rest.head?, c ≠ 'x' ∧ c ≠ 'o' ∧ c ≠ 'b') :
    readInt? (signChars negative ++ d :: rest) =
      if isPaddedNumber (signChars negative ++ d :: rest) then none
      else (readDigits? 10 (d :: rest)).map fun n : Nat => if negative then -(n : Int) else n := by
  have hbased : readBased? (d :: rest) = none := readBased?_eq_none hsecond
  have hminus : d ≠ '-' := fun h => by simp [h] at hd
  have hplus : d ≠ '+' := fun h => by simp [h] at hd
  cases negative with
  | true =>
    simp only [readInt?, signChars, if_true, List.cons_append, List.nil_append, hbased]
    split_ifs
    · rfl
    · cases readDigits? 10 (d :: rest) <;> rfl
  | false =>
    simp only [readInt?, signChars, Bool.false_eq_true, if_false, List.nil_append]
    split
    · next heq => exact absurd (List.cons.inj heq).1 hminus
    · next heq => exact absurd (List.cons.inj heq).1 hplus
    · simp only [hbased, Bool.false_eq_true, if_false]
      split_ifs
      · rfl
      · cases readDigits? 10 (d :: rest) <;> rfl

theorem dropSign_signChars {negative : Bool} {d : Char} {rest : List Char}
    (hd : d.isDigit = true) : dropSign (signChars negative ++ d :: rest) = d :: rest := by
  have hminus : d ≠ '-' := fun h => by simp [h] at hd
  have hplus : d ≠ '+' := fun h => by simp [h] at hd
  cases negative with
  | true => rfl
  | false =>
    simp only [signChars, Bool.false_eq_true, if_false, List.nil_append]
    unfold dropSign
    split
    · next heq => exact absurd (List.cons.inj heq).1 hplus
    · next heq => exact absurd (List.cons.inj heq).1 hminus
    · rfl

/-- A text that begins with a digit, behind a minus or not. -/
def BeginsNumber (cs : List Char) : Prop :=
  ∃ negative d rest, cs = signChars negative ++ d :: rest ∧ d.isDigit = true

/-- Does a word begin as no number does, with a letter or another mark? -/
def beginsOther (word : String) : Bool := word.toList.head?.all fun c => !c.isDigit && c != '-'

theorem BeginsNumber.ne {s word : String} (h : BeginsNumber s.toList)
    (hword : beginsOther word = true) : s ≠ word := by
  rintro rfl
  obtain ⟨negative, d, rest, hs, hd⟩ := h
  rw [beginsOther, hs] at hword
  cases negative with
  | true => simp [signChars] at hword
  | false => simp [signChars, hd] at hword

theorem BeginsNumber.isNullWord_eq {s : String} (h : BeginsNumber s.toList) :
    isNullWord s = false := by
  simp only [isNullWord, Bool.or_eq_false_iff, beq_eq_false_iff_ne]
  exact ⟨⟨⟨h.ne (by decide), h.ne (by decide)⟩, h.ne (by decide)⟩, h.ne (by decide)⟩

theorem BeginsNumber.boolWord?_eq {s : String} (h : BeginsNumber s.toList) :
    boolWord? s = none := by
  have hne {word : String} (hword : beginsOther word = true) : (s == word) = false :=
    beq_eq_false_iff_ne.2 (h.ne hword)
  unfold boolWord?
  rw [hne (by decide), hne (by decide), hne (by decide), hne (by decide), hne (by decide),
    hne (by decide)]
  rfl

theorem BeginsNumber.isEmpty_eq {s : String} (h : BeginsNumber s.toList) : s.isEmpty = false := by
  rw [← Bool.not_eq_true, String.isEmpty_iff]
  exact h.ne (by decide)

theorem beginsNumber_toString_int (i : Int) : BeginsNumber (toString i).toList := by
  obtain ⟨d, rest, hdigits⟩ :=
    List.exists_cons_of_ne_nil (Nat.toDigits_ne_nil (n := i.natAbs) (b := 10))
  rw [toList_toString_int, hdigits]
  exact ⟨_, d, rest, rfl, isDigit_toDigits i.natAbs d (by simp [hdigits])⟩

/-- **A whole number is read as it is written.** -/
theorem readInt?_toString (i : Int) : readInt? (toString i).toList = some i := by
  obtain ⟨d, rest, hdigits⟩ :=
    List.exists_cons_of_ne_nil (Nat.toDigits_ne_nil (n := i.natAbs) (b := 10))
  have hall := isDigit_toDigits i.natAbs
  rw [hdigits] at hall
  have hd : d.isDigit = true := hall d (List.mem_cons_self ..)
  have hpadded : isPaddedNumber (signChars (decide (i < 0)) ++ d :: rest) = false := by
    rw [isPaddedNumber, dropSign_signChars hd]
    split
    · next e more heq =>
      -- no zero in front of a positive number, and zero is one digit
      rcases Nat.eq_zero_or_pos i.natAbs with h0 | hpos
      · rw [← hdigits, h0] at heq
        simp at heq
      · exact absurd (by rw [hdigits, heq]; rfl) (head?_toDigits hpos)
    · rfl
  have hsecond : ∀ c ∈ rest.head?, c ≠ 'x' ∧ c ≠ 'o' ∧ c ≠ 'b' := fun c hc => by
    have := hall c (List.mem_cons_of_mem _ (List.mem_of_mem_head? hc))
    refine ⟨?_, ?_, ?_⟩ <;> rintro rfl <;> simp at this
  rw [toList_toString_int, hdigits, readInt?_eq hd hsecond, hpadded, ← hdigits,
    readDigits?_toDigits]
  simp only [Bool.false_eq_true, if_false, decide_eq_true_eq, Option.map_some]
  split_ifs <;> congr 1 <;> omega

/-! ### Numbers with a point -/

theorem readMantissa?_digits {whole : List Char} (hne : whole ≠ [])
    (h : ∀ c ∈ whole, c.isDigit = true) : readMantissa? whole = some (whole, 0) := by
  have htake : whole.takeWhile (·.isDigit) = whole := List.takeWhile_eq_self_iff.2 h
  have hdrop : whole.dropWhile (·.isDigit) = [] := List.dropWhile_eq_nil_iff.2 h
  simp only [readMantissa?, htake, hdrop, List.isEmpty_iff, if_neg hne]

/-- The digits behind a point are counted. -/
theorem readMantissa?_point {whole part : List Char} (hne : whole ≠ [])
    (hwhole : ∀ c ∈ whole, c.isDigit = true) (hpart : ∀ c ∈ part, c.isDigit = true) :
    readMantissa? (whole ++ '.' :: part) = some (whole ++ part, part.length) := by
  have htake : (whole ++ '.' :: part).takeWhile (·.isDigit) = whole := by
    rw [List.takeWhile_append_of_pos hwhole]
    simp
  have hdrop : (whole ++ '.' :: part).dropWhile (·.isDigit) = '.' :: part := by
    rw [List.dropWhile_append_of_pos hwhole]
    simp
  have hall : part.all (·.isDigit) = true := List.all_eq_true.2 hpart
  simp [readMantissa?, htake, hdrop, hall, hne]

theorem readExponent?_toString (i : Int) : readExponent? (toString i).toList = some i := by
  obtain ⟨d, rest, hdigits⟩ :=
    List.exists_cons_of_ne_nil (Nat.toDigits_ne_nil (n := i.natAbs) (b := 10))
  have hd : d.isDigit = true := isDigit_toDigits i.natAbs d (by simp [hdigits])
  have hminus : d ≠ '-' := fun h => by simp [h] at hd
  have hvalue : readExponent? (toString i).toList =
      some (if (signChars (decide (i < 0)) ++ d :: rest).head? = some '-' then -(i.natAbs : Int)
        else i.natAbs) := by
    rw [toList_toString_int, hdigits, readExponent?, dropSign_signChars hd, ← hdigits,
      readDigits?_toDigits]
    rfl
  rw [hvalue]
  congr 1
  rcases Int.lt_or_le i 0 with hneg | hpos
  · simp only [signChars, decide_eq_true hneg, if_true, List.cons_append, List.head?_cons]
    omega
  · simp only [signChars, decide_eq_false (not_lt.2 hpos), Bool.false_eq_true, if_false,
      List.nil_append, List.head?_cons, Option.some.injEq, hminus]
    omega

/-- Is it no mark of an exponent? -/
theorem not_isE_of_isDigit {c : Char} (h : c.isDigit = true) : (c == 'e' || c == 'E') = false := by
  rw [Bool.or_eq_false_iff, beq_eq_false_iff_ne, beq_eq_false_iff_ne]
  refine ⟨?_, ?_⟩ <;> rintro rfl <;> simp at h

theorem readDecimal?_exponent {mantissa digits : List Char} {places : Nat} (negative : Bool)
    (i : Int) (hmantissa : ∀ c ∈ mantissa, (c == 'e' || c == 'E') = false)
    (h : readMantissa? mantissa = some (digits, places)) (hne : digits ≠ [])
    (hdigits : ∀ c ∈ digits, c.isDigit = true) :
    readDecimal? negative (mantissa ++ 'e' :: (toString i).toList) =
      some (.ofDecimal negative (Nat.ofDigitChars 10 digits 0) (i - places)) := by
  have hall : ∀ c ∈ mantissa, (!(c == 'e' || c == 'E')) = true := fun c hc => by
    rw [hmantissa c hc]
    rfl
  simp only [readDecimal?]
  rw [List.dropWhile_append_of_pos hall, List.takeWhile_append_of_pos hall]
  simp only [List.dropWhile_cons, List.takeWhile_cons, beq_self_eq_true, Bool.true_or,
    Bool.not_true, Bool.false_eq_true, if_false, List.append_nil, h, readExponent?_toString,
    readDigits?_ten hne hdigits]

theorem readDecimal?_point {whole part : List Char} (negative : Bool) (hne : whole ≠ [])
    (hwhole : ∀ c ∈ whole, c.isDigit = true) (hpart : ∀ c ∈ part, c.isDigit = true) :
    readDecimal? negative (whole ++ '.' :: part) =
      some (.ofDecimal negative (Nat.ofDigitChars 10 (whole ++ part) 0)
        (-(part.length : Int))) := by
  have hall : ∀ c ∈ whole ++ '.' :: part, (!(c == 'e' || c == 'E')) = true := fun c hc => by
    rcases List.mem_append.1 hc with hc | hc
    · rw [not_isE_of_isDigit (hwhole c hc)]
      rfl
    · rcases List.mem_cons.1 hc with rfl | hc
      · rfl
      · rw [not_isE_of_isDigit (hpart c hc)]
        rfl
  have hdigits : ∀ c ∈ whole ++ part, c.isDigit = true := fun c hc =>
    (List.mem_append.1 hc).elim (hwhole c) (hpart c)
  simp only [readDecimal?]
  rw [List.takeWhile_eq_self_iff.2 hall, List.dropWhile_eq_nil_iff.2 hall,
    readMantissa?_point hne hwhole hpart]
  simp [readDigits?_ten (List.append_ne_nil_of_left_ne_nil hne part) hdigits]

/-- A text that reads as a decimal number and is no whole number. -/
structure LaysOut (d : Decimal) (cs : List Char) : Prop where
  reads : ∀ negative, ∃ (n : Nat) (e : Int),
    readDecimal? negative cs = some (.ofDecimal negative n e) ∧ (n : ℚ) * 10 ^ e = d.value
  begins : ∃ c rest, cs = c :: rest ∧ c.isDigit = true
  chars : ∀ c ∈ cs, c.isDigit = true ∨ c = '.' ∨ c = 'e' ∨ c = '-'
  mark : ∃ c ∈ cs, c.isDigit = false

/-- Digits with a point among them. -/
theorem laysOut_point {d : Decimal} {whole part : List Char} (hne : whole ≠ [])
    (hwhole : ∀ c ∈ whole, c.isDigit = true) (hpart : ∀ c ∈ part, c.isDigit = true)
    (hvalue : (Nat.ofDigitChars 10 (whole ++ part) 0 : ℚ) * 10 ^ (-(part.length : Int)) =
      d.value) : LaysOut d (whole ++ '.' :: part) where
  reads negative := ⟨_, _, readDecimal?_point negative hne hwhole hpart, hvalue⟩
  begins := by
    obtain ⟨c, rest, rfl⟩ := List.exists_cons_of_ne_nil hne
    exact ⟨c, _, rfl, hwhole c (List.mem_cons_self ..)⟩
  chars c hc := by
    rcases List.mem_append.1 hc with hc | hc
    · exact .inl (hwhole c hc)
    · exact (List.mem_cons.1 hc).elim (fun h => .inr (.inl h)) fun h => .inl (hpart c h)
  mark := ⟨'.', by simp, rfl⟩

theorem laysOut_exponent {d : Decimal} {mantissa digits : List Char} {places : Nat} {i : Int}
    (hmantissa : ∀ c ∈ mantissa, c.isDigit = true ∨ c = '.')
    (hbegins : ∃ c rest, mantissa = c :: rest ∧ c.isDigit = true)
    (h : readMantissa? mantissa = some (digits, places)) (hne : digits ≠ [])
    (hdigits : ∀ c ∈ digits, c.isDigit = true)
    (hvalue : (Nat.ofDigitChars 10 digits 0 : ℚ) * 10 ^ (i - places) = d.value) :
    LaysOut d (mantissa ++ 'e' :: (toString i).toList) where
  reads negative := by
    refine ⟨_, _, readDecimal?_exponent negative i (fun c hc => ?_) h hne hdigits, hvalue⟩
    rcases hmantissa c hc with hc | rfl
    · exact not_isE_of_isDigit hc
    · rfl
  begins := by
    obtain ⟨c, rest, rfl, hc⟩ := hbegins
    exact ⟨c, _, rfl, hc⟩
  chars c hc := by
    rcases List.mem_append.1 hc with hc | hc
    · exact (hmantissa c hc).imp_right .inl
    · rcases List.mem_cons.1 hc with rfl | hc
      · exact .inr (.inr (.inl rfl))
      · rw [toList_toString_int] at hc
        rcases List.mem_append.1 hc with hc | hc
        · exact .inr (.inr (.inr (mem_signChars hc)))
        · exact .inl (isDigit_toDigits _ c hc)
  mark := ⟨'e', by simp, rfl⟩

/-! ### The four layouts -/

variable {d : Decimal}

/-- With a point among the digits, in front of them or behind them. -/
theorem laysOut_positional :
    LaysOut d (NumberLayout.document.positionalChars (Nat.toDigits 10 d.digits)
      ((Nat.toDigits 10 d.digits).length + d.exp)) := by
  have hdigits := isDigit_toDigits d.digits
  have hvalue : Nat.ofDigitChars 10 (Nat.toDigits 10 d.digits) 0 = d.digits :=
    Nat.ofDigitChars_toDigits (by decide) (by decide)
  have hpos : 0 < (Nat.toDigits 10 d.digits).length := Nat.length_toDigits_pos
  have hzeros (n : Nat) : ∀ c ∈ List.replicate n '0', c.isDigit = true := fun c hc => by
    rw [(List.mem_replicate.1 hc).2]
    rfl
  generalize Nat.toDigits 10 d.digits = digits at hdigits hvalue hpos
  have hne : digits ≠ [] := List.length_pos_iff.1 hpos
  have hdot : NumberLayout.document.pointZero = true := rfl
  simp only [NumberLayout.positionalChars, if_pos hdot]
  split_ifs with hwhole hpoint
  · -- all digits, and zeros, in front of the point
    rw [List.append_assoc]
    have hlen : ((digits.length : Int) + d.exp).toNat - digits.length = d.exp.toNat := by omega
    rw [hlen, ← List.append_assoc]
    refine laysOut_point (List.append_ne_nil_of_left_ne_nil hne _)
      (fun c hc => (List.mem_append.1 hc).elim (hdigits c) (hzeros _ c)) (hzeros 1) ?_
    have hread := ofDigitChars_zeros digits 0 (d.exp.toNat + 1)
    rw [List.replicate_zero, List.nil_append, List.replicate_succ', ← List.append_assoc, hvalue]
      at hread
    rw [hread, Decimal.value]
    push_cast
    rw [pow_succ, List.length_singleton, Nat.cast_one, zpow_neg_one, mul_assoc, mul_assoc,
      mul_inv_cancel₀ (by norm_num), mul_one, ← zpow_natCast]
    congr 2
    omega
  · -- the point stands among the digits
    have hlt : (digits.length + d.exp).toNat < digits.length := by omega
    refine laysOut_point (fun hnil => ?_) (fun c hc => hdigits c (List.mem_of_mem_take hc))
      (fun c hc => hdigits c (List.mem_of_mem_drop hc)) ?_
    · have := congrArg List.length hnil
      rw [List.length_take, List.length_nil] at this
      omega
    · rw [List.take_append_drop, hvalue, List.length_drop, Decimal.value]
      congr 2
      omega
  · -- zeros between the point and the digits
    change LaysOut d (['0'] ++ '.' :: (_ ++ digits))
    refine laysOut_point (List.cons_ne_nil _ _) (hzeros 1) (fun c hc =>
      (List.mem_append.1 hc).elim (hzeros _ c) (hdigits c)) ?_
    have hread := ofDigitChars_zeros digits ((-((digits.length : Int) + d.exp)).toNat + 1) 0
    rw [List.replicate_succ, List.replicate_zero, List.append_nil, pow_zero, mul_one, hvalue]
      at hread
    rw [List.singleton_append, ← List.cons_append, hread, List.length_append,
      List.length_replicate, Decimal.value]
    congr 2
    omega

/-- With an exponent. -/
theorem laysOut_scientific :
    LaysOut d (NumberLayout.scientificChars (Nat.toDigits 10 d.digits)
      ((Nat.toDigits 10 d.digits).length + d.exp)) := by
  have hdigits := isDigit_toDigits d.digits
  have hvalue : Nat.ofDigitChars 10 (Nat.toDigits 10 d.digits) 0 = d.digits :=
    Nat.ofDigitChars_toDigits (by decide) (by decide)
  have hne : Nat.toDigits 10 d.digits ≠ [] := Nat.toDigits_ne_nil
  generalize Nat.toDigits 10 d.digits = digits at hdigits hvalue hne
  unfold NumberLayout.scientificChars
  split
  · next => exact absurd rfl hne
  · next c =>
    have hmantissa := readMantissa?_digits hne hdigits
    refine laysOut_exponent (fun x hx => .inl (hdigits x hx))
      ⟨c, [], rfl, hdigits c (List.mem_cons_self ..)⟩ hmantissa hne hdigits ?_
    rw [hvalue, Decimal.value]
    congr 2
    simp
  · next c rest _ =>
    have hc := hdigits c (List.mem_cons_self ..)
    have hrest (x : Char) (hx : x ∈ rest) := hdigits x (List.mem_cons_of_mem _ hx)
    have hmantissa := readMantissa?_point (List.cons_ne_nil c [])
      (fun x hx => List.mem_singleton.1 hx ▸ hc) hrest
    change LaysOut d ((c :: '.' :: rest) ++ 'e' :: _)
    refine laysOut_exponent (fun x hx => ?_) ⟨c, _, rfl, hc⟩ hmantissa hne hdigits ?_
    · rcases List.mem_cons.1 hx with rfl | hx
      · exact .inl hc
      · exact (List.mem_cons.1 hx).elim .inr fun hx => .inl (hrest x hx)
    · rw [List.singleton_append, hvalue, Decimal.value]
      congr 2
      simp
      omega

/-! ### What is written for a number -/

theorem LaysOut.beginsNumber {cs : List Char} (h : LaysOut d cs) (negative : Bool) :
    BeginsNumber (signChars negative ++ cs) := by
  obtain ⟨c, rest, rfl, hc⟩ := h.begins
  exact ⟨negative, c, rest, rfl, hc⟩

/-- A point or an exponent shows that it is no whole number. -/
theorem LaysOut.readInt?_eq {cs : List Char} (h : LaysOut d cs) (negative : Bool) :
    readInt? (signChars negative ++ cs) = none := by
  obtain ⟨c, rest, rfl, hc⟩ := h.begins
  obtain ⟨mark, hmem, hmark⟩ := h.mark
  have hsecond : ∀ c ∈ rest.head?, c ≠ 'x' ∧ c ≠ 'o' ∧ c ≠ 'b' := fun x hx => by
    have hchar := h.chars x (List.mem_cons_of_mem _ (List.mem_of_mem_head? hx))
    refine ⟨?_, ?_, ?_⟩ <;> rintro rfl <;> simp at hchar
  rw [Yaml.readInt?_eq hc hsecond, readDigits?_ten_eq_none hmem hmark]
  split_ifs <;> rfl

theorem LaysOut.isPaddedNumber_eq {cs : List Char} (h : LaysOut d cs) (negative : Bool) :
    isPaddedNumber (signChars negative ++ cs) = false := by
  obtain ⟨c, rest, rfl, hc⟩ := h.begins
  obtain ⟨mark, hmem, hmark⟩ := h.mark
  rw [isPaddedNumber, dropSign_signChars hc]
  split
  · next e more heq =>
    obtain ⟨rfl, rfl⟩ := List.cons.inj heq
    rcases List.mem_cons.1 hmem with rfl | hmem
    · cases hmark
    · rw [← Bool.not_eq_true, List.all_eq_true]
      exact fun hall => by simp [hall mark hmem] at hmark
  · rfl

/-- A number laid out is read behind its sign. -/
theorem LaysOut.readFloat?_eq {x : Binary64} {cs : List Char} (hx : x.isFinite = true)
    (h : LaysOut (Decimal.shortest x) cs) :
    readFloat? (String.ofList (signChars x.isNegative ++ cs)) = some x := by
  have hne {s : String} (hs : BeginsNumber s.toList) (word : String)
      (hword : beginsOther word = true) : (s == word) = false :=
    beq_eq_false_iff_ne.2 (hs.ne hword)
  have hself : BeginsNumber (String.ofList (signChars x.isNegative ++ cs)).toList := by
    rw [String.toList_ofList]
    exact h.beginsNumber x.isNegative
  have hbody : BeginsNumber (String.ofList cs).toList := by
    rw [String.toList_ofList]
    exact h.beginsNumber false
  obtain ⟨n, e, hread, hvalue⟩ := h.reads x.isNegative
  rw [Binary64.ofDecimal_shortest hx hvalue] at hread
  unfold readFloat?
  simp only [hne hself ".nan" (by decide), hne hself ".NaN" (by decide),
    hne hself ".NAN" (by decide), Bool.or_self, Bool.false_eq_true, if_false,
    String.toList_ofList]
  obtain ⟨c, rest, rfl, hc⟩ := h.begins
  cases hsign : x.isNegative with
  | true =>
    rw [hsign] at hread
    simp only [signChars, if_true, List.cons_append, List.nil_append,
      hne hbody ".inf" (by decide), hne hbody ".Inf" (by decide), hne hbody ".INF" (by decide),
      Bool.or_self, Bool.false_eq_true, if_false, hread, Option.filter_some, hx]
  | false =>
    have hminus : c ≠ '-' := fun h => by simp [h] at hc
    have hplus : c ≠ '+' := fun h => by simp [h] at hc
    rw [hsign] at hread
    simp only [signChars, Bool.false_eq_true, if_false, List.nil_append]
    split
    · next heq => exact absurd (List.cons.inj heq).1 hminus
    · next heq => exact absurd (List.cons.inj heq).1 hplus
    · simp only [hne hbody ".inf" (by decide), hne hbody ".Inf" (by decide),
        hne hbody ".INF" (by decide), Bool.or_self, Bool.false_eq_true, if_false, hread,
        Option.filter_some, hx, if_true]

/-- What is written for a finite number is its digits laid out, behind its sign. -/
theorem exists_laysOut {x : Binary64} (hx : x.isFinite = true) :
    ∃ cs, NumberLayout.document.render x = String.ofList (signChars x.isNegative ++ cs) ∧
      LaysOut (Decimal.shortest x) cs := by
  have hlt : x.magnitudeBits < Binary64.infiniteBits := of_decide_eq_true hx
  have hnan : x.isNaN = false := decide_eq_false (not_lt.2 hlt.le)
  have hinf : x.isInfinite = false := beq_eq_false_iff_ne.2 hlt.ne
  have hdot : NumberLayout.document.pointZero = true := rfl
  simp only [NumberLayout.render, hnan, hinf, if_pos hdot, Bool.false_eq_true, if_false]
  refine ⟨_, rfl, ?_⟩
  split_ifs with hzero hpositional
  · have hvalue : (Nat.ofDigitChars 10 (['0'] ++ ['0']) 0 : ℚ) * 10 ^ (-(1 : Int)) =
        (Decimal.shortest x).value := by
      rw [Decimal.value, hzero]
      simp [Nat.ofDigitChars]
    exact laysOut_point (List.cons_ne_nil _ _) (by simp) (by simp) hvalue
  · exact laysOut_positional
  · exact laysOut_scientific

/-! ### Numbers need no quotes -/

/-- A text that may stand without quotes, and then means an atom. -/
structure IsWord (s : String) (a : Atom) : Prop where
  ne_nil : s.toList ≠ []
  plain : allowsPlain s.toList = true
  means : Atom.ofPlain s = a

theorem hasPair_eq_false {p q : Char → Bool} {cs : List Char} (h : ∀ c ∈ cs, q c = false) :
    hasPair p q cs = false := by
  fun_induction hasPair p q cs with
  | case1 c d rest ih =>
    rw [h d (by simp), Bool.and_false, Bool.false_or]
    exact ih fun x hx => h x (List.mem_cons_of_mem _ hx)
  | case2 => rfl

theorem hasOpenColon_eq_false {cs : List Char} (h : ':' ∉ cs) : hasOpenColon cs = false := by
  induction cs with
  | nil => rfl
  | cons c cs ih =>
    have hc : (c == ':') = false := beq_eq_false_iff_ne.2 fun hc => h (hc ▸ List.mem_cons_self ..)
    rw [hasOpenColon, hc, ih fun hmem => h (List.mem_cons_of_mem _ hmem)]
    rfl

/-- A number does not begin as a mark. -/
theorem beginsAsMark_number {negative : Bool} {d : Char} {rest : List Char}
    (hd : d.isDigit = true) : beginsAsMark (signChars negative ++ d :: rest) = false := by
  have hne {c : Char} (hc : c.isDigit = false) : d ≠ c := by
    rintro rfl
    simp [hc] at hd
  have hmark : "#,[]\x7b\x7d&*!|>'\"%@\x60".toList.contains d = false := by
    rw [← Bool.not_eq_true, List.contains_iff_mem]
    have hnone : ("#,[]\x7b\x7d&*!|>'\"%@\x60".toList.any Char.isDigit) = false := by decide
    exact fun hmem => hne (by simpa using List.any_eq_false.1 hnone d hmem) rfl
  have hblank : atBlank (d :: rest) = false := by
    simp [atBlank, atGap, isSpace, isBreak, hne (c := ' ') rfl, hne (c := '\t') rfl,
      hne (c := '\x00') rfl, hne (c := '\n') rfl, hne (c := '\r') rfl, hne (c := '\u0085') rfl,
      hne (c := '\u2028') rfl, hne (c := '\u2029') rfl]
  cases negative with
  | true =>
    change beginsAsMark ('-' :: d :: rest) = false
    unfold beginsAsMark
    split
    · next heq => exact absurd (List.cons.inj (List.cons.inj heq).2).1 (hne rfl)
    · next heq => exact absurd (List.cons.inj heq).1 (by decide)
    · next heq =>
      obtain ⟨rfl, rfl⟩ := List.cons.inj heq
      rw [hblank, Bool.and_false, Bool.or_false]
      decide
    · rfl
  | false =>
    change beginsAsMark (d :: rest) = false
    unfold beginsAsMark
    split
    · next heq => exact absurd (List.cons.inj heq).1 (hne rfl)
    · next heq => exact absurd (List.cons.inj heq).1 (hne rfl)
    · next heq =>
      obtain ⟨rfl, rfl⟩ := List.cons.inj heq
      rw [hmark, beq_eq_false_iff_ne.2 (hne (c := '?') rfl),
        beq_eq_false_iff_ne.2 (hne (c := '-') rfl)]
      rfl
    · rfl

/-- Digits, points, minuses and exponents are no marks. -/
theorem allowsPlain_number {cs : List Char} (h : BeginsNumber cs)
    (hchars : ∀ c ∈ cs, c.isDigit = true ∨ c = '.' ∨ c = 'e' ∨ c = '-') :
    allowsPlain cs = true := by
  have hne {c d : Char} (hc : c ∈ cs) (hd : d.isDigit = false ∧ d ≠ '.' ∧ d ≠ 'e' ∧ d ≠ '-') :
      c ≠ d := by
    rintro rfl
    rcases hchars c hc with h | h
    · simp [hd.1] at h
    · simp [hd.2.1, hd.2.2.1, hd.2.2.2] at h
  have hprinted : ∀ c ∈ cs, (isPrinted c && !isBreak c) = true := fun c hc => by
    rcases hchars c hc with hd | rfl | rfl | rfl
    · simp only [Char.isDigit, Bool.and_eq_true, decide_eq_true_eq] at hd
      have hlow : 48 ≤ c.toNat := UInt32.le_iff_toNat_le.1 hd.1
      have hhigh : c.toNat ≤ 57 := UInt32.le_iff_toNat_le.1 hd.2
      have hp : isPrinted c = true := by
        simp [isPrinted]
        omega
      have hb : isBreak c = false := by
        simp [isBreak, hne hc (d := '\n') (by decide), hne hc (d := '\r') (by decide),
          hne hc (d := '\u0085') (by decide), hne hc (d := '\u2028') (by decide),
          hne hc (d := '\u2029') (by decide)]
      rw [hp, hb]
      rfl
    all_goals rfl
  have hends (o : Option Char) (ho : ∀ c ∈ o, c ∈ cs) : o.any isBlankSpace = false := by
    cases o with
    | none => rfl
    | some c => exact beq_eq_false_iff_ne.2 (hne (ho c rfl) (by decide))
  have hmarks : hasMarks cs = false := by
    have hcolon : ':' ∉ cs := fun hc => hne hc (by decide) rfl
    have hhash : ∀ c ∈ cs, (c == '#') = false := fun c hc =>
      beq_eq_false_iff_ne.2 (hne hc (by decide))
    have hbegins : beginsAsMark cs = false := by
      obtain ⟨negative, d, rest, rfl, hd⟩ := h
      exact beginsAsMark_number hd
    rw [hasMarks, hbegins, hasOpenColon_eq_false hcolon, hasPair_eq_false hhash]
    rfl
  rw [allowsPlain, List.all_eq_true.2 hprinted, hmarks,
    hends _ fun c hc => List.mem_of_mem_head? hc, hends _ fun c hc => List.mem_of_getLast? hc]
  rfl

theorem BeginsNumber.ne_nil {cs : List Char} (h : BeginsNumber cs) : cs ≠ [] := by
  obtain ⟨negative, d, rest, rfl, -⟩ := h
  exact List.append_ne_nil_of_right_ne_nil _ (List.cons_ne_nil d rest)

/-- **A whole number is a word** for itself. -/
theorem isWord_int {i : Int} (hlow : -0x8000000000000000 ≤ i) (hhigh : i < 0x10000000000000000) :
    IsWord (toString i) (.int i) where
  ne_nil := (beginsNumber_toString_int i).ne_nil
  plain := by
    refine allowsPlain_number (beginsNumber_toString_int i) fun c hc => ?_
    rw [toList_toString_int, List.mem_append] at hc
    rcases hc with hc | hc
    · exact .inr (.inr (.inr (mem_signChars hc)))
    · exact .inl (isDigit_toDigits _ c hc)
  means := by
    have hbegins := beginsNumber_toString_int i
    simp only [Atom.ofPlain, hbegins.isEmpty_eq, hbegins.isNullWord_eq, hbegins.boolWord?_eq,
      readInt?_toString, Option.bind_some, intAtom?, if_pos (And.intro hlow hhigh), Bool.or_self,
      Bool.false_eq_true, if_false]

/-- A number laid out is a word for itself. -/
theorem LaysOut.isWord {x : Binary64} {cs : List Char} (hx : x.isFinite = true)
    (h : LaysOut (Decimal.shortest x) cs) :
    IsWord (String.ofList (signChars x.isNegative ++ cs)) (.float x) := by
  have hbegins : BeginsNumber (String.ofList (signChars x.isNegative ++ cs)).toList := by
    rw [String.toList_ofList]
    exact h.beginsNumber x.isNegative
  refine ⟨hbegins.ne_nil, ?_, ?_⟩
  · refine allowsPlain_number hbegins fun c hc => ?_
    rw [String.toList_ofList, List.mem_append] at hc
    rcases hc with hc | hc
    · exact .inr (.inr (.inr (mem_signChars hc)))
    · exact h.chars c hc
  · have hint : readInt? (String.ofList (signChars x.isNegative ++ cs)).toList = none := by
      rw [String.toList_ofList]
      exact h.readInt?_eq _
    have hpadded :
        isPaddedNumber (String.ofList (signChars x.isNegative ++ cs)).toList = false := by
      rw [String.toList_ofList]
      exact h.isPaddedNumber_eq _
    simp only [Atom.ofPlain, hbegins.isEmpty_eq, hbegins.isNullWord_eq, hbegins.boolWord?_eq, hint,
      hpadded, h.readFloat?_eq hx, Option.bind_none, Bool.or_self, Bool.false_eq_true, if_false]

/-- **A number with a point is a word** for itself, bit for bit, unless it is no number. -/
theorem isWord_float {x : Binary64} (hx : x.isNaN = false) :
    IsWord (NumberLayout.document.render x) (.float x) := by
  have hle : ¬Binary64.infiniteBits < x.magnitudeBits := of_decide_eq_false hx
  by_cases hfinite : x.isFinite = true
  · obtain ⟨cs, hrender, h⟩ := exists_laysOut hfinite
    exact hrender ▸ h.isWord hfinite
  · have hinf : x.magnitudeBits = Binary64.infiniteBits := by
      have : ¬x.magnitudeBits < Binary64.infiniteBits := fun h => hfinite (decide_eq_true h)
      omega
    have hself := Binary64.ofMagnitude_self x
    rw [hinf] at hself
    cases hsign : x.isNegative with
    | true =>
      rw [hsign] at hself
      subst hself
      exact ⟨by decide, by decide, by decide⟩
    | false =>
      rw [hsign] at hself
      subst hself
      exact ⟨by decide, by decide, by decide⟩

end Yaml
end ClusterSync
