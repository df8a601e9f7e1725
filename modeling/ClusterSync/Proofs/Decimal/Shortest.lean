/-
# The shortest digits are read back

The search for the shortest decimal number tries the grids of one to seventeen digits. What it
finds on a grid lies in the interval of the number (`roundsTo_of_onGrid?`), and on the
grid of seventeen digits it finds something: the step of that grid is less than the
interval is wide, so one of the two neighbours of the number is inside (`exists_onGrid?`).
Hence the digits that are written are read back as the number, bit for bit
(`ofDecimal_shortest`).
-/

import Mathlib.Data.Nat.Cast.Order.Field
import ClusterSync.Proofs.Decimal.Rounding

namespace ClusterSync
namespace Decimal

open Binary64 (RoundsTo)

/-- The number that digits and an exponent stand for. -/
def value (d : Decimal) : ℚ := d.digits * 10 ^ d.exp

/-- Zeros at the end of the digits move into the exponent. -/
theorem value_dropZeros (d : Decimal) : d.dropZeros.value = d.value := by
  fun_induction dropZeros d with
  | case1 d h ih =>
    have hdigits : d.digits = 10 * (d.digits / 10) := by omega
    have hcast : (d.digits : ℚ) = 10 * (d.digits / 10 : Nat) := by exact_mod_cast hdigits
    rw [ih]
    simp only [value]
    rw [zpow_add_one₀ (by norm_num), hcast]
    ring
  | case2 d h => rfl

theorem between_iff {closed : Bool} {low a high : Nat} :
    between closed low a high = true ↔
      (low ≤ a ∧ a ≤ high) ∧ (closed = false → low < a ∧ a < high) := by
  cases closed with
  | true => simp [between]
  | false =>
    simp only [between, Bool.false_eq_true, if_false, Bool.and_eq_true, decide_eq_true_eq,
      forall_const]
    omega

/-- The two factors that a grid is compared with are a power of two and one of ten, on a common
scale. -/
theorem exists_scale (q k : Int) : ∃ s : ℚ, 0 < s ∧
    ((2 ^ (q - 2).toNat * 10 ^ (-k).toNat : Nat) : ℚ) = 2 ^ (q - 2) * s ∧
    ((2 ^ (2 - q).toNat * 10 ^ k.toNat : Nat) : ℚ) = 10 ^ k * s := by
  refine ⟨2 ^ (2 - q).toNat * 10 ^ (-k).toNat, by positivity, ?_, ?_⟩
  · have h : (2 : ℚ) ^ (q - 2).toNat = 2 ^ (q - 2) * 2 ^ (2 - q).toNat := by
      rw [← zpow_natCast, ← zpow_natCast, ← zpow_add₀ two_ne_zero]
      congr 1
      omega
    push_cast
    rw [h, mul_assoc]
  · have h : (10 : ℚ) ^ k.toNat = 10 ^ k * 10 ^ (-k).toNat := by
      rw [← zpow_natCast, ← zpow_natCast, ← zpow_add₀ (by norm_num)]
      congr 1
      omega
    push_cast
    rw [h]
    ring

variable {m d : Nat} {q k : Int}

/-- The comparison on the grid is that with the interval. -/
theorem inside_iff : between (m % 2 == 0)
      (lowerEnd m q * (Nat.pow 2 (q - 2).toNat * Nat.pow 10 (-k).toNat))
      (d * (Nat.pow 2 (2 - q).toNat * Nat.pow 10 k.toNat))
      (upperEnd m * (Nat.pow 2 (q - 2).toNat * Nat.pow 10 (-k).toNat)) = true ↔
    RoundsTo m q ((d : ℚ) * 10 ^ k) := by
  obtain ⟨s, hs, hnum, hden⟩ := exists_scale q k
  simp only [Nat.pow_eq]
  generalize 2 ^ (q - 2).toNat * 10 ^ (-k).toNat = num at hnum
  generalize 2 ^ (2 - q).toNat * 10 ^ k.toNat = den at hden
  have hle (a b : Nat) : a * num ≤ b * den ↔ (a : ℚ) * 2 ^ (q - 2) ≤ b * 10 ^ k := by
    rw [← Nat.cast_le (α := ℚ), Nat.cast_mul, Nat.cast_mul, hnum, hden, ← mul_assoc, ← mul_assoc,
      mul_le_mul_iff_of_pos_right hs]
  have hge (a b : Nat) : b * den ≤ a * num ↔ (b : ℚ) * 10 ^ k ≤ a * 2 ^ (q - 2) := by
    rw [← Nat.cast_le (α := ℚ), Nat.cast_mul, Nat.cast_mul, hnum, hden, ← mul_assoc, ← mul_assoc,
      mul_le_mul_iff_of_pos_right hs]
  have hodd : (m % 2 == 0) = false ↔ m % 2 = 1 := by
    rw [beq_eq_false_iff_ne]
    omega
  rw [between_iff, hodd, ← not_le, ← not_le, hle, hge, hle, hge, not_le, not_le]
  exact ⟨fun h => ⟨h.1.1, h.1.2, h.2⟩, fun h => ⟨⟨h.low, h.high⟩, h.inner⟩⟩

/-- **What is found on a grid lies in the interval.** -/
theorem roundsTo_of_onGrid? (h : onGrid? m q k = some d) : RoundsTo m q ((d : ℚ) * 10 ^ k) := by
  rw [← inside_iff]
  simp only [onGrid?] at h
  split at h
  · next hbelow habove =>
    obtain rfl := Option.some.inj h
    split_ifs <;> assumption
  · next hbelow habove =>
    obtain rfl := Option.some.inj h
    exact hbelow
  · next hbelow habove =>
    obtain rfl := Option.some.inj h
    exact habove
  · cases h

/-- A step less than the interval is wide does not miss it: the point below the number or the
one above is inside. -/
theorem exists_onGrid?_of_step
    (h : (lowerEnd m q : ℚ) * 2 ^ (q - 2) + 10 ^ k < upperEnd m * 2 ^ (q - 2)) (hm : 0 < m) :
    ∃ d, onGrid? m q k = some d := by
  obtain ⟨s, hs, hnum, hden⟩ := exists_scale q k
  simp only [onGrid?, Nat.pow_eq]
  have hnumpos : 0 < 2 ^ (q - 2).toNat * 10 ^ (-k).toNat := by positivity
  have hdenpos : 0 < 2 ^ (2 - q).toNat * 10 ^ k.toNat := by positivity
  generalize 2 ^ (q - 2).toNat * 10 ^ (-k).toNat = num at hnum hnumpos
  generalize 2 ^ (2 - q).toNat * 10 ^ k.toNat = den at hden hdenpos
  have hstep : lowerEnd m q * num + den < upperEnd m * num := by
    rw [← Nat.cast_lt (α := ℚ)]
    push_cast
    rw [hnum, hden]
    nlinarith
  have hlower : lowerEnd m q * num < 4 * m * num :=
    Nat.mul_lt_mul_of_pos_right (by unfold lowerEnd; split_ifs <;> omega) hnumpos
  have hupper : 4 * m * num < upperEnd m * num :=
    Nat.mul_lt_mul_of_pos_right (by unfold upperEnd; omega) hnumpos
  have hbelow : 4 * m * num / den * den ≤ 4 * m * num := Nat.div_mul_le_self _ _
  have habove : 4 * m * num < (4 * m * num / den + 1) * den :=
    (Nat.lt_mul_div_succ _ hdenpos).trans_eq (mul_comm _ _)
  rw [add_mul, one_mul] at habove ⊢
  generalize 4 * m * num / den * den = below at hbelow habove ⊢
  split
  · exact ⟨_, rfl⟩
  · exact ⟨_, rfl⟩
  · exact ⟨_, rfl⟩
  · next h₁ h₂ =>
    -- else the interval would lie between two neighbours
    have hout₁ : ¬(lowerEnd m q * num < below ∧ below < upperEnd m * num) := fun hin => by
      rw [between_iff.2 ⟨⟨hin.1.le, hin.2.le⟩, fun _ => hin⟩] at h₁
      cases h₁
    have hout₂ : ¬(lowerEnd m q * num < below + den ∧ below + den < upperEnd m * num) :=
        fun hin => by
      rw [between_iff.2 ⟨⟨hin.1.le, hin.2.le⟩, fun _ => hin⟩] at h₂
      cases h₂
    omega

/-- The first digit is not looked for too far up. -/
theorem ten_zpow_leadingExponent_le (hm : 0 < m) (hq : -1074 ≤ q) :
    (10 : ℚ) ^ leadingExponent m q ≤ m * 2 ^ q := by
  -- the number on a scale of `10^400`, rounded down, is still positive
  obtain ⟨scaled, hdef, hpos, hle⟩ : ∃ scaled : Nat,
      leadingExponent m q = (Binary64.decimalLength scaled : Int) - 401 ∧ 0 < scaled ∧
        (scaled : ℚ) ≤ m * 2 ^ q * 10 ^ 400 := by
    unfold leadingExponent
    -- a power of this size must not be evaluated
    generalize hscale : 400 = scale
    generalize htens : Nat.pow 10 scale = tens
    have hcast : (tens : ℚ) = 10 ^ scale := by
      rw [← htens]
      exact Nat.cast_pow 10 scale
    have htens : 2 ^ 1074 ≤ tens :=
      calc 2 ^ 1074
        _ ≤ 2 ^ (3 * scale) := pow_le_pow_right₀ one_le_two (by omega)
        _ = (2 ^ 3) ^ scale := Nat.pow_mul 2 3 scale
        _ ≤ 10 ^ scale := Nat.pow_le_pow_left (by decide) scale
        _ = tens := htens
    rw [← hcast]
    split_ifs with hsign
    · obtain ⟨n, rfl⟩ := Int.eq_ofNat_of_zero_le hsign
      have hpos : 0 < tens := (pow_pos two_pos 1074).trans_le htens
      refine ⟨_, rfl, Nat.mul_pos (Nat.mul_pos hm hpos) (Nat.pow_pos two_pos), ?_⟩
      simp only [Nat.pow_eq, Int.toNat_natCast, zpow_natCast]
      push_cast
      exact le_of_eq (mul_right_comm _ _ _)
    · obtain ⟨n, rfl⟩ : ∃ n : Nat, q = -(n : Int) := ⟨(-q).toNat, by omega⟩
      rw [neg_neg, Int.toNat_natCast]
      have hfits : 2 ^ n ≤ m * tens :=
        (pow_le_pow_right₀ one_le_two (by omega : n ≤ 1074)).trans
          (htens.trans (Nat.le_mul_of_pos_left _ hm))
      refine ⟨_, rfl, Nat.div_pos hfits (Nat.pow_pos two_pos), ?_⟩
      simp only [Nat.pow_eq, zpow_neg, zpow_natCast]
      refine Nat.cast_div_le.trans (le_of_eq ?_)
      push_cast
      rw [div_eq_mul_inv, mul_right_comm]
  have hdigits := (Binary64.digits_bounds hpos (-400)).1
  rw [hdef, show (Binary64.decimalLength scaled : Int) - 401
    = (Binary64.decimalLength scaled : Int) + -400 - 1 by ring]
  refine hdigits.trans ?_
  rw [zpow_neg, ← div_eq_mul_inv, div_le_iff₀ (by positivity)]
  exact_mod_cast hle

/-- **Seventeen digits are enough.** -/
theorem exists_onGrid? (hm : 0 < m) (hlt : m < 2 ^ 53) (hq : -1074 ≤ q) :
    ∃ d, onGrid? m q (leadingExponent m q - 16) = some d := by
  refine exists_onGrid?_of_step ?_ hm
  have hlead := ten_zpow_leadingExponent_le hm hq
  have hpos : (0 : ℚ) < 2 ^ (q - 2) := by positivity
  have hquarter : (2 : ℚ) ^ q = 4 * 2 ^ (q - 2) := by
    rw [zpow_sub₀ two_ne_zero]
    ring
  -- in units of a quarter step: a step is `4m / 10^16` at most, the interval three or four wide
  have hwidth : (lowerEnd m q : ℚ) + m * 4 / 10 ^ 16 < upperEnd m := by
    unfold lowerEnd upperEnd
    split_ifs with hpower
    · rw [hpower.1]
      norm_num
    · have hmq : (m : ℚ) < 9007199254740992 := by exact_mod_cast hlt
      rw [Nat.cast_sub (by omega)]
      push_cast
      linarith
  have hgrid : (10 : ℚ) ^ (leadingExponent m q - 16) ≤ m * 4 / 10 ^ 16 * 2 ^ (q - 2) := by
    rw [zpow_sub₀ (by norm_num), div_le_iff₀ (by positivity)]
    calc (10 : ℚ) ^ leadingExponent m q ≤ m * 2 ^ q := hlead
      _ = m * 4 / 10 ^ 16 * 2 ^ (q - 2) * 10 ^ (16 : Int) := by
        rw [hquarter]
        norm_num
        ring
  calc (lowerEnd m q : ℚ) * 2 ^ (q - 2) + 10 ^ (leadingExponent m q - 16)
      ≤ (lowerEnd m q + m * 4 / 10 ^ 16) * 2 ^ (q - 2) := by linarith
    _ < upperEnd m * 2 ^ (q - 2) := mul_lt_mul_of_pos_right hwidth hpos

/-- **The shortest decimal number lies in the interval of the number it is for.** -/
theorem roundsTo_shortest (x : Binary64) :
    RoundsTo x.significand x.exponent (shortest x).value := by
  unfold shortest shortestOf
  split_ifs with hzero
  · rw [hzero]
    exact ⟨by simp [value, lowerEnd], by simp [value, upperEnd]; positivity, fun h => by omega⟩
  · have hm : 0 < x.significand := Nat.pos_of_ne_zero hzero
    simp only [value_dropZeros]
    generalize hfound : List.findSome? _ _ = found
    cases found with
    | none =>
      obtain ⟨d, hd⟩ := exists_onGrid? hm (Binary64.significand_lt x) (Binary64.exponent_ge x)
      have := List.findSome?_eq_none_iff.1 hfound 16 (by simp)
      simp [hd] at this
    | some d =>
      obtain ⟨n, -, hn⟩ := List.exists_of_findSome?_eq_some hfound
      obtain ⟨digits, hdigits, rfl⟩ := Option.map_eq_some_iff.1 hn
      exact roundsTo_of_onGrid? hdigits

end Decimal

/-- **The digits that are written are read back as the number**, bit for bit, wherever the point
is put among them. -/
theorem Binary64.ofDecimal_shortest {x : Binary64} (hx : x.isFinite = true) {n : Nat} {e : Int}
    (h : (n : ℚ) * 10 ^ e = (Decimal.shortest x).value) : ofDecimal x.isNegative n e = x :=
  ofDecimal_eq hx (h ▸ Decimal.roundsTo_shortest x)

end ClusterSync
