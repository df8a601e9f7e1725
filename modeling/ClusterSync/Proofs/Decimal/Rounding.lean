/-
# Which fractions a number is read from

The fractions that are rounded to `m · 2^q` fill an interval, and its ends belong to it when
`m` is even (`RoundsTo`). A fraction in the interval of a finite number is read as that number
(`ofDecimal_eq`), whatever digits it is written with.

In units of `2^q` the interval reaches half a step to either side, and below a power of two a
quarter of a step down. So the fraction is rounded on the grid of the number (`grid_eq`), which
gives `m`, except just below a power of two: there it is rounded on the grid of half the step, to
`2^53` (`nearest_below_power`), and that carries into the exponent (`nearest_eq`).
-/

import Mathlib.Algebra.Order.Field.Power
import Mathlib.Data.Rat.Cast.Order
import Mathlib.Tactic.FieldSimp
import Mathlib.Tactic.Linarith
import Mathlib.Tactic.NormNum
import Mathlib.Tactic.Positivity
import Mathlib.Tactic.Ring
import ClusterSync.Decimal.Shortest

namespace ClusterSync
namespace Binary64

open Decimal (lowerEnd upperEnd)

/-- A fraction in the interval of those that are rounded to `m · 2^q`. -/
structure RoundsTo (m : Nat) (q : Int) (v : ℚ) : Prop where
  low : (lowerEnd m q : ℚ) * 2 ^ (q - 2) ≤ v
  high : v ≤ (upperEnd m : ℚ) * 2 ^ (q - 2)
  /-- The ends belong to an even number only. -/
  inner : m % 2 = 1 →
    (lowerEnd m q : ℚ) * 2 ^ (q - 2) < v ∧ v < (upperEnd m : ℚ) * 2 ^ (q - 2)

/-! ### Rounding to a whole number -/

/-- **The nearest whole number**: it is at most half away, and less than half if it is odd. -/
theorem roundHalfEven_eq {num den m : Nat} (hden : 0 < den)
    (hlow : 2 * m * den ≤ 2 * num + den) (hhigh : 2 * num ≤ 2 * m * den + den)
    (hodd : m % 2 = 1 → 2 * m * den < 2 * num + den ∧ 2 * num < 2 * m * den + den) :
    roundHalfEven num den = m := by
  have hdiv : den * (num / den) + num % den = num := Nat.div_add_mod num den
  have hmod : num % den < den := Nat.mod_lt num hden
  simp only [roundHalfEven]
  generalize num / den = q at hdiv
  generalize num % den = r at hdiv hmod
  subst hdiv
  -- the quotient is the whole number or the one before it
  have hle : q ≤ m := by
    by_contra hcon
    have : den * (m + 1) ≤ den * q := Nat.mul_le_mul_left den (by omega)
    nlinarith
  have hge : m ≤ q + 1 := by
    by_contra hcon
    have : den * (q + 2) ≤ den * m := Nat.mul_le_mul_left den (by omega)
    nlinarith
  rcases (by omega : m = q ∨ m = q + 1) with rfl | rfl
  · have hr : 2 * r ≤ den := by nlinarith
    rw [if_neg (by omega : ¬den < 2 * r)]
    split_ifs with h
    · rfl
    · rcases Nat.mod_two_eq_zero_or_one m with heven | hone
      · omega
      · have := (hodd hone).2
        exact absurd (by nlinarith : 2 * r < den) h
  · have hr : den ≤ 2 * r := by nlinarith
    rw [if_neg (by omega : ¬2 * r < den)]
    split_ifs with h
    · rfl
    · rcases Nat.mod_two_eq_zero_or_one (q + 1) with heven | hone
      · omega
      · have := (hodd hone).1
        exact absurd (by nlinarith : den < 2 * r) h

/-- The same of a fraction: `w` is `num / den`. -/
theorem roundHalfEven_of_near {num den m : Nat} {w : ℚ} (hden : 0 < den)
    (hw : w = (num : ℚ) / den) (hlow : (m : ℚ) - 1 / 2 ≤ w) (hhigh : w ≤ m + 1 / 2)
    (hodd : m % 2 = 1 → (m : ℚ) - 1 / 2 < w ∧ w < m + 1 / 2) : roundHalfEven num den = m := by
  have hpos : (0 : ℚ) < den := by exact_mod_cast hden
  have hmul : w * den = num := by rw [hw, div_mul_cancel₀ _ hpos.ne']
  refine roundHalfEven_eq hden ?_ ?_ fun hone => ⟨?_, ?_⟩
  · have : (2 * m * den : ℚ) ≤ 2 * num + den := by nlinarith
    exact_mod_cast this
  · have : (2 * num : ℚ) ≤ 2 * m * den + den := by nlinarith
    exact_mod_cast this
  · have : (2 * m * den : ℚ) < 2 * num + den := by nlinarith [(hodd hone).1]
    exact_mod_cast this
  · have : (2 * num : ℚ) < 2 * m * den + den := by nlinarith [(hodd hone).2]
    exact_mod_cast this

/-! ### The binary exponent of a fraction -/

theorem powerAtMost_iff {num den : Nat} (hden : 0 < den) (e : Int) :
    powerAtMost num den e = true ↔ (2 : ℚ) ^ e ≤ (num : ℚ) / den := by
  have hpos : (0 : ℚ) < den := by exact_mod_cast hden
  rw [le_div_iff₀ hpos, powerAtMost]
  split_ifs with he
  · obtain ⟨n, rfl⟩ := Int.eq_ofNat_of_zero_le he
    simp only [decide_eq_true_eq, Int.toNat_natCast, zpow_natCast, Nat.pow_eq]
    rw [← Nat.cast_le (α := ℚ)]
    push_cast
    rw [mul_comm]
  · obtain ⟨n, rfl⟩ : ∃ n : Nat, e = -(n : Int) := ⟨(-e).toNat, by omega⟩
    simp only [decide_eq_true_eq, neg_neg, Int.toNat_natCast, zpow_neg, zpow_natCast, Nat.pow_eq]
    rw [← Nat.cast_le (α := ℚ), inv_mul_le_iff₀ (by positivity)]
    push_cast
    rw [mul_comm]

/-- The binary exponent found is that of the fraction. -/
theorem floorLog2_spec {num den : Nat} (hnum : 0 < num) (hden : 0 < den) :
    (2 : ℚ) ^ floorLog2 num den ≤ (num : ℚ) / den ∧
      (num : ℚ) / den < 2 ^ (floorLog2 num den + 1) := by
  have hdpos : (0 : ℚ) < den := by exact_mod_cast hden
  have hn₁ : (2 : ℚ) ^ num.log2 ≤ num := by exact_mod_cast Nat.log2_self_le hnum.ne'
  have hn₂ : (num : ℚ) < 2 ^ (num.log2 + 1) := by exact_mod_cast Nat.lt_log2_self
  have hd₁ : (2 : ℚ) ^ den.log2 ≤ den := by exact_mod_cast Nat.log2_self_le hden.ne'
  have hd₂ : (den : ℚ) < 2 ^ (den.log2 + 1) := by exact_mod_cast Nat.lt_log2_self
  have hupper : (num : ℚ) / den < 2 ^ ((num.log2 : Int) - den.log2 + 1) := by
    rw [div_lt_iff₀ hdpos, show (num.log2 : Int) - den.log2 + 1 = (num.log2 + 1 : Nat) - den.log2 by
      push_cast; ring, zpow_sub₀ two_ne_zero, zpow_natCast, zpow_natCast]
    calc (num : ℚ) < 2 ^ (num.log2 + 1) := hn₂
      _ = 2 ^ (num.log2 + 1) / 2 ^ den.log2 * 2 ^ den.log2 := by field_simp
      _ ≤ 2 ^ (num.log2 + 1) / 2 ^ den.log2 * den := by gcongr
  have hlower : (2 : ℚ) ^ ((num.log2 : Int) - den.log2 - 1) ≤ (num : ℚ) / den := by
    rw [le_div_iff₀ hdpos, show (num.log2 : Int) - den.log2 - 1 = num.log2 - (den.log2 + 1 : Nat) by
      push_cast; ring, zpow_sub₀ two_ne_zero, zpow_natCast, zpow_natCast]
    calc (2 : ℚ) ^ num.log2 / 2 ^ (den.log2 + 1) * den
        ≤ 2 ^ num.log2 / 2 ^ (den.log2 + 1) * 2 ^ (den.log2 + 1) := by gcongr
      _ = 2 ^ num.log2 := by field_simp
      _ ≤ num := hn₁
  simp only [floorLog2]
  split_ifs with h
  · exact ⟨(powerAtMost_iff hden _).1 h, hupper⟩
  · refine ⟨hlower, ?_⟩
    rw [sub_add_cancel]
    exact lt_of_not_ge fun hle => h ((powerAtMost_iff hden _).2 hle)

variable {num den m n : Nat} {q e : Int} {w : ℚ}

/-- In units of `2 ^ q` a fraction has the binary exponent that powers of two around it tell. -/
theorem le_floorLog2 (hnum : 0 < num) (hden : 0 < den) (hw : (num : ℚ) / den = w * 2 ^ q)
    (h : 2 ^ n ≤ w) : q + n ≤ floorLog2 num den := by
  have hle : (2 : ℚ) ^ (q + n) ≤ num / den := by
    rw [hw, zpow_add₀ two_ne_zero, zpow_natCast, mul_comm]
    gcongr
  have hlt : q + n < floorLog2 num den + 1 :=
    (zpow_lt_zpow_iff_right₀ one_lt_two).1 (hle.trans_lt (floorLog2_spec hnum hden).2)
  omega

theorem floorLog2_lt (hnum : 0 < num) (hden : 0 < den) (hw : (num : ℚ) / den = w * 2 ^ q)
    (h : w < 2 ^ n) : floorLog2 num den < q + n := by
  have hlt : (num : ℚ) / den < 2 ^ (q + n) := by
    rw [hw, zpow_add₀ two_ne_zero, zpow_natCast, mul_comm]
    gcongr
  exact (zpow_lt_zpow_iff_right₀ one_lt_two).1 ((floorLog2_spec hnum hden).1.trans_lt hlt)

/-! ### The number nearest to a fraction -/

/-- A fraction is rounded in units of a power of two, which is moved to the side where it is
whole. -/
theorem roundHalfEven_scaled (hden : 0 < den) (hw : (num : ℚ) / den = w * 2 ^ q)
    (hlow : (m : ℚ) - 1 / 2 ≤ w) (hhigh : w ≤ m + 1 / 2)
    (hodd : m % 2 = 1 → (m : ℚ) - 1 / 2 < w ∧ w < m + 1 / 2) :
    (if 0 ≤ q then roundHalfEven num (den * Nat.pow 2 q.toNat)
      else roundHalfEven (num * Nat.pow 2 (-q).toNat) den) = m := by
  have hunit : w = (num : ℚ) / den / 2 ^ q := by
    rw [hw, mul_div_cancel_right₀ _ (zpow_ne_zero q two_ne_zero)]
  split_ifs with hq
  · obtain ⟨k, rfl⟩ := Int.eq_ofNat_of_zero_le hq
    refine roundHalfEven_of_near (by simp; positivity) ?_ hlow hhigh hodd
    simp [hunit, div_div]
  · obtain ⟨k, rfl⟩ : ∃ k : Nat, q = -(k : Int) := ⟨(-q).toNat, by omega⟩
    refine roundHalfEven_of_near hden ?_ hlow hhigh hodd
    simp [hunit, mul_div_right_comm]

/-- On its grid a fraction is rounded to the nearest multiple of the step. -/
theorem nearest_of_grid (hnum : 0 < num) (hden : 0 < den) (hw : (num : ℚ) / den = w * 2 ^ e)
    (hgrid : max (-1074) (floorLog2 num den - 52) = e)
    (hfinite : (e + 1074).toNat * 2 ^ 52 + m ≤ infiniteBits)
    (hlow : (m : ℚ) - 1 / 2 ≤ w) (hhigh : w ≤ m + 1 / 2)
    (hodd : m % 2 = 1 → (m : ℚ) - 1 / 2 < w ∧ w < m + 1 / 2) :
    nearest num den = (e + 1074).toNat * 2 ^ 52 + m := by
  rw [nearest, if_neg hnum.ne']
  simp only [hgrid, roundHalfEven_scaled hden hw hlow hhigh hodd]
  exact min_eq_right hfinite

/-- The interval of a number in units of its step. -/
theorem RoundsTo.scaled (h : RoundsTo m q (w * 2 ^ q)) :
    (lowerEnd m q : ℚ) / 4 ≤ w ∧ w ≤ m + 1 / 2 ∧
      (m % 2 = 1 → (lowerEnd m q : ℚ) / 4 < w ∧ w < m + 1 / 2) := by
  have hstep : (0 : ℚ) < 2 ^ q := by positivity
  have hquarter (k : Nat) : (k : ℚ) * 2 ^ (q - 2) = k / 4 * 2 ^ q := by
    rw [zpow_sub₀ two_ne_zero]
    ring
  have hupper : (upperEnd m : ℚ) / 4 = m + 1 / 2 := by
    simp only [upperEnd]
    push_cast
    ring
  obtain ⟨hlow, hhigh, hinner⟩ := h
  simp only [hquarter, hupper, mul_le_mul_iff_of_pos_right hstep,
    mul_lt_mul_iff_of_pos_right hstep] at hlow hhigh hinner
  exact ⟨hlow, hhigh, hinner⟩

/-- The interval does not reach further down than half a step. -/
theorem half_le_lowerEnd (m : Nat) (q : Int) : (m : ℚ) - 1 / 2 ≤ (lowerEnd m q : ℚ) / 4 := by
  have hnat : 4 * m ≤ lowerEnd m q + 2 := by
    simp only [lowerEnd]
    split_ifs <;> omega
  have hcast : (4 * m : ℚ) ≤ lowerEnd m q + 2 := by exact_mod_cast hnat
  linarith

/-- Just below a power of two the grid is twice as fine, and a fraction that is near enough goes
up to the power. -/
theorem nearest_below_power (hnum : 0 < num) (hden : 0 < den) (hw : (num : ℚ) / den = w * 2 ^ q)
    (hq : -1074 < q) (hlow : 2 ^ 52 - 1 / 4 ≤ w) (hhigh : w < 2 ^ 52)
    (hfinite : (q - 1 + 1074).toNat * 2 ^ 52 + 2 ^ 53 ≤ infiniteBits) :
    nearest num den = (q - 1 + 1074).toNat * 2 ^ 52 + 2 ^ 53 := by
  have hge : q + 51 ≤ floorLog2 num den := le_floorLog2 hnum hden hw (by linarith)
  have hlt : floorLog2 num den < q + 52 := floorLog2_lt hnum hden hw hhigh
  have hhalf : (num : ℚ) / den = 2 * w * 2 ^ (q - 1) := by
    rw [hw, zpow_sub_one₀ two_ne_zero]
    ring
  refine nearest_of_grid hnum hden hhalf (by omega) hfinite ?_ ?_ fun hone => ?_
  · push_cast
    linarith
  · push_cast
    linarith
  · norm_num at hone

/-- Everywhere else the grid of a fraction is that of the number. -/
theorem grid_eq (hnum : 0 < num) (hden : 0 < den) (hw : (num : ℚ) / den = w * 2 ^ q)
    (hq : -1074 ≤ q) (hlow : -1074 < q → 2 ^ 52 ≤ w) (hhigh : w < 2 ^ 53) :
    max (-1074) (floorLog2 num den - 52) = q := by
  have hlt : floorLog2 num den < q + 53 := floorLog2_lt hnum hden hw hhigh
  rcases hq.eq_or_lt with heq | hgt
  · omega
  · have hge : q + 52 ≤ floorLog2 num den := le_floorLog2 hnum hden hw (hlow hgt)
    omega

/-- **A fraction in the interval of a finite number is rounded to it.** The magnitude of
`m · 2^q` is `(q + 1074) · 2^52 + m`. -/
theorem nearest_eq (hnum : 0 < num) (hden : 0 < den) (hm : m < 2 ^ 53) (hq : -1074 ≤ q)
    (hnormal : -1074 < q → 2 ^ 52 ≤ m)
    (hfinite : (q + 1074).toNat * 2 ^ 52 + m ≤ infiniteBits)
    (h : RoundsTo m q ((num : ℚ) / den)) :
    nearest num den = (q + 1074).toNat * 2 ^ 52 + m := by
  obtain ⟨w, hw⟩ : ∃ w : ℚ, (num : ℚ) / den = w * 2 ^ q :=
    ⟨num / den / 2 ^ q, (div_mul_cancel₀ _ (zpow_ne_zero q two_ne_zero)).symm⟩
  rw [hw] at h
  obtain ⟨hlow, hhigh, hinner⟩ := h.scaled
  by_cases hcarry : (m = 2 ^ 52 ∧ -1074 < q) ∧ w < 2 ^ 52
  · obtain ⟨⟨rfl, hgt⟩, hwlt⟩ := hcarry
    have hwlow : (2 : ℚ) ^ 52 - 1 / 4 ≤ w := by
      simp only [lowerEnd, Nat.reducePow, true_and, if_pos hgt] at hlow
      norm_num at hlow ⊢
      linarith
    have hbits : (q - 1 + 1074).toNat * 2 ^ 52 + 2 ^ 53 = (q + 1074).toNat * 2 ^ 52 + 2 ^ 52 := by
      omega
    rw [← hbits] at hfinite ⊢
    exact nearest_below_power hnum hden hw hgt hwlow hwlt hfinite
  · have hhalf := half_le_lowerEnd m q
    have hmtop : (m : ℚ) + 1 ≤ 2 ^ 53 := by exact_mod_cast hm
    have hw52 (hgt : -1074 < q) : (2 : ℚ) ^ 52 ≤ w := by
      rcases (hnormal hgt).eq_or_lt with heq | hlt
      · exact not_lt.1 fun hwlt => hcarry ⟨⟨heq.symm, hgt⟩, hwlt⟩
      · have : (2 : ℚ) ^ 52 + 1 ≤ m := by exact_mod_cast hlt
        linarith
    refine nearest_of_grid hnum hden hw (grid_eq hnum hden hw hq hw52 (by linarith)) hfinite
      (hhalf.trans hlow) hhigh fun hone => ?_
    exact ⟨hhalf.trans_lt (hinner hone).1, (hinner hone).2⟩

/-! ### The number that digits stand for -/

theorem ofMagnitude_self (x : Binary64) : ofMagnitude x.isNegative x.magnitudeBits = x := by
  obtain ⟨bits⟩ := x
  have hlt : bits.toNat < 2 ^ 64 := bits.toNat_lt
  have hnat : (if 0x8000000000000000 ≤ bits.toNat
      then 0x8000000000000000 + bits.toNat % 0x8000000000000000
      else bits.toNat % 0x8000000000000000) = bits.toNat := by
    split_ifs <;> omega
  unfold ofMagnitude isNegative magnitudeBits
  rw [← UInt64.ofNat_toNat (x := bits)]
  congr 2
  simpa only [decide_eq_true_eq, UInt64.ofNat_toNat] using hnat

theorem significand_lt (x : Binary64) : x.significand < 2 ^ 53 := by
  simp only [significand]
  split_ifs <;> omega

theorem exponent_ge (x : Binary64) : -1074 ≤ x.exponent := by
  simp only [exponent]
  split_ifs <;> omega

theorem significand_ge {x : Binary64} (h : -1074 < x.exponent) : 2 ^ 52 ≤ x.significand := by
  simp only [exponent, significand] at *
  split_ifs at * <;> omega

/-- The bits of a magnitude are its exponent and its significand, one carried into the other. -/
theorem magnitudeBits_eq (x : Binary64) :
    x.magnitudeBits = (x.exponent + 1074).toNat * 2 ^ 52 + x.significand := by
  unfold exponent significand
  by_cases hlt : x.magnitudeBits < 0x10000000000000
  · simp only [if_pos hlt]
    omega
  · simp only [if_neg hlt]
    omega

theorem exponent_le {x : Binary64} (h : x.isFinite = true) : x.exponent ≤ 971 := by
  have hlt : x.magnitudeBits < infiniteBits := of_decide_eq_true h
  unfold infiniteBits at hlt
  unfold exponent
  split_ifs <;> omega

theorem decimalLength_spec {n : Nat} (hn : 0 < n) :
    10 ^ (decimalLength n - 1) ≤ n ∧ n < 10 ^ decimalLength n ∧ 0 < decimalLength n := by
  fun_induction decimalLength n with
  | case1 n hlt => exact ⟨hn, hlt, one_pos⟩
  | case2 n hge ih =>
    obtain ⟨h₁, h₂, h₃⟩ := ih (by omega)
    have hsucc : decimalLength (n / 10) - 1 + 1 = decimalLength (n / 10) := by omega
    have hpow : 10 ^ decimalLength (n / 10) = 10 ^ (decimalLength (n / 10) - 1) * 10 := by
      rw [← Nat.pow_succ, Nat.succ_eq_add_one, hsucc]
    refine ⟨?_, ?_, Nat.succ_pos _⟩
    · rw [Nat.add_sub_cancel]
      omega
    · rw [Nat.pow_succ]
      omega

variable {x : Binary64} {n : Nat} {e : Int}

/-- The first digit of a positive number stands for the power of ten that its length tells. -/
theorem digits_bounds (hn : 0 < n) (e : Int) :
    (10 : ℚ) ^ ((decimalLength n : Int) + e - 1) ≤ n * 10 ^ e ∧
      (n : ℚ) * 10 ^ e < 10 ^ ((decimalLength n : Int) + e) := by
  obtain ⟨hlow, hhigh, hpos⟩ := decimalLength_spec hn
  have hlow' : (10 : ℚ) ^ (decimalLength n - 1) ≤ n := by exact_mod_cast hlow
  have hhigh' : (n : ℚ) < 10 ^ decimalLength n := by exact_mod_cast hhigh
  constructor
  · rw [show (decimalLength n : Int) + e - 1 = (decimalLength n - 1 : Nat) + e by omega,
      zpow_add₀ (by norm_num), zpow_natCast]
    gcongr
  · rw [zpow_add₀ (by norm_num), zpow_natCast]
    gcongr

/-- Only zero is rounded from zero, or from less than the thousandth power of a tenth. -/
theorem significand_eq_zero {v : ℚ} (h : RoundsTo x.significand x.exponent v)
    (hv : v < 2 ^ (-1075 : Int)) : x.significand = 0 := by
  by_contra hne
  have hends : (2 : ℚ) ≤ lowerEnd x.significand x.exponent := by
    have : 2 ≤ lowerEnd x.significand x.exponent := by
      unfold lowerEnd
      split_ifs <;> omega
    exact_mod_cast this
  have hexp : (2 : ℚ) ^ (-1076 : Int) ≤ 2 ^ (x.exponent - 2) :=
    zpow_le_zpow_right₀ one_le_two (by linarith [exponent_ge x])
  have hlow : (2 : ℚ) * 2 ^ (-1076 : Int) ≤ v :=
    (mul_le_mul hends hexp (by positivity) (by positivity)).trans h.low
  rw [← zpow_one_add₀ two_ne_zero] at hlow
  exact absurd hv (not_lt.2 hlow)

theorem magnitudeBits_eq_zero (h : x.significand = 0) : x.magnitudeBits = 0 := by
  have hexp : ¬-1074 < x.exponent := fun hlt => by
    have := significand_ge hlt
    omega
  rw [magnitudeBits_eq, h]
  omega

/-- Ten is more than the third power of two. -/
theorem two_zpow_lt {a b : Int} (hb : 0 ≤ b) (h : a < 3 * b) : (2 : ℚ) ^ a < 10 ^ b := by
  calc (2 : ℚ) ^ a < 2 ^ (3 * b) := (zpow_lt_zpow_iff_right₀ one_lt_two).2 h
    _ = (2 ^ (3 : Int)) ^ b := zpow_mul _ _ _
    _ ≤ 10 ^ b := zpow_le_zpow_left₀ hb (by positivity) (by norm_num)

/-- The interval of a finite number ends below the thousandth power of ten. -/
theorem RoundsTo.lt (hx : x.isFinite = true) {v : ℚ} (h : RoundsTo x.significand x.exponent v) :
    v < 10 ^ (1000 : Int) := by
  have hends : (upperEnd x.significand : ℚ) ≤ 2 ^ (55 : Int) := by
    have : upperEnd x.significand ≤ 2 ^ 55 := by
      have := significand_lt x
      unfold upperEnd
      omega
    exact_mod_cast this
  have hexp : (2 : ℚ) ^ (x.exponent - 2) ≤ 2 ^ (969 : Int) :=
    zpow_le_zpow_right₀ one_le_two (by linarith [exponent_le hx])
  calc v ≤ (upperEnd x.significand : ℚ) * 2 ^ (x.exponent - 2) := h.high
    _ ≤ 2 ^ (55 : Int) * 2 ^ (969 : Int) := mul_le_mul hends hexp (by positivity) (by positivity)
    _ = 2 ^ (55 + 969 : Int) := (zpow_add₀ two_ne_zero _ _).symm
    _ < 10 ^ (1000 : Int) := two_zpow_lt (by norm_num) (by norm_num)

theorem tenth_zpow_lt : (10 : ℚ) ^ (-1000 : Int) < 2 ^ (-1075 : Int) := by
  rw [zpow_neg, zpow_neg]
  exact inv_strictAnti₀ (by positivity) (two_zpow_lt (by norm_num) (by norm_num))

/-- Either way of writing the digits as a fraction is the one with two factors. -/
theorem ofDecimal_def (negative : Bool) (n : Nat) (e : Int) :
    ofDecimal negative n e = ofMagnitude negative
      (if n = 0 ∨ (decimalLength n : Int) + e < -1000 then 0
        else if 1000 < (decimalLength n : Int) + e then infiniteBits
        else nearest (n * 10 ^ e.toNat) (10 ^ (-e).toNat)) := by
  unfold ofDecimal
  by_cases he : 0 ≤ e
  · rw [if_pos he, show (-e).toNat = 0 by omega, pow_zero]
    rfl
  · rw [if_neg he, show e.toNat = 0 by omega, pow_zero, mul_one]
    rfl

/-- **A fraction in the interval of a finite number is read as that number**, with its sign. -/
theorem ofDecimal_eq (hx : x.isFinite = true)
    (h : RoundsTo x.significand x.exponent ((n : ℚ) * 10 ^ e)) :
    ofDecimal x.isNegative n e = x := by
  rw [ofDecimal_def]
  conv_rhs => rw [← ofMagnitude_self x]
  congr 1
  split_ifs with hsmall hlarge
  · refine (magnitudeBits_eq_zero (significand_eq_zero h ?_)).symm
    rcases Nat.eq_zero_or_pos n with rfl | hn
    · rw [Nat.cast_zero, zero_mul]
      positivity
    · have htop := hsmall.resolve_left hn.ne'
      calc (n : ℚ) * 10 ^ e < 10 ^ ((decimalLength n : Int) + e) := (digits_bounds hn e).2
        _ ≤ 10 ^ (-1000 : Int) := zpow_le_zpow_right₀ (by norm_num) htop.le
        _ < 2 ^ (-1075 : Int) := tenth_zpow_lt
  · have hn : 0 < n := Nat.pos_of_ne_zero fun h0 => hsmall (.inl h0)
    have := (digits_bounds hn e).1.trans_lt (h.lt hx)
    have := (zpow_lt_zpow_iff_right₀ (by norm_num : (1 : ℚ) < 10)).1 this
    omega
  · have hn : 0 < n := Nat.pos_of_ne_zero fun h0 => hsmall (.inl h0)
    have hfinite : x.magnitudeBits < infiniteBits := of_decide_eq_true hx
    rw [magnitudeBits_eq] at hfinite ⊢
    have hfraction : ((n * 10 ^ e.toNat : Nat) : ℚ) / (10 ^ (-e).toNat : Nat) = n * 10 ^ e := by
      rw [Nat.cast_mul, mul_div_assoc]
      congr 1
      push_cast
      rw [← zpow_natCast, ← zpow_natCast, ← zpow_sub₀ (by norm_num)]
      congr 1
      omega
    refine nearest_eq (by positivity) (by positivity) (significand_lt x) (exponent_ge x)
      significand_ge hfinite.le ?_
    rwa [hfraction]

end Binary64
end ClusterSync
