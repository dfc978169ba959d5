import Mathlib.Algebra.Order.Field.Rat
import Mathlib.Algebra.Order.Field.Power
import Mathlib.Tactic.FieldSimp
import Mathlib.Tactic.Linarith
import Mathlib.Tactic.Positivity
import Mathlib.Tactic.Ring
import Mathlib.Tactic.NormNum
import Verdict.Decimal.Shortest

/-!
# Scaled numbers as rational numbers

Comparing multiples of powers of two with multiples of powers of ten, and the neighbours of a
number on a decimal grid, in terms of the rational numbers that they stand for.
-/

namespace Verdict.Decimal

def Scaled.value (s : Scaled) : ℚ :=
  s.coefficient * 10 ^ s.exponent

namespace Shortest

theorem zpow_eq_div {x : ℚ} (hx : x ≠ 0) (p : ℤ) : x ^ p = x ^ p.toNat / x ^ (-p).toNat := by
  rw [← zpow_natCast, ← zpow_natCast, ← zpow_sub₀ hx]
  congr 1
  omega

/-- Both sides of a comparison over one positive denominator. -/
theorem exists_scale (a : Nat) (p : ℤ) (b : Nat) (q : ℤ) :
    ∃ d : ℚ, 0 < d ∧ ((a * twoTo p.toNat * tenTo (-q).toNat : Nat) : ℚ) = a * 2 ^ p * d
      ∧ ((b * tenTo q.toNat * twoTo (-p).toNat : Nat) : ℚ) = b * 10 ^ q * d := by
  refine ⟨2 ^ (-p).toNat * 10 ^ (-q).toNat, by positivity, ?_, ?_⟩
  · rw [zpow_eq_div two_ne_zero p]
    simp only [twoTo, tenTo, Nat.pow_eq, Nat.cast_mul, Nat.cast_pow, Nat.cast_ofNat]
    field_simp
  · rw [zpow_eq_div (by norm_num : (10 : ℚ) ≠ 0) q]
    simp only [twoTo, tenTo, Nat.pow_eq, Nat.cast_mul, Nat.cast_pow, Nat.cast_ofNat]
    field_simp

theorem compareScales_lt {a : Nat} {p : ℤ} {b : Nat} {q : ℤ} :
    compareScales a p b q = .lt ↔ (a : ℚ) * 2 ^ p < b * 10 ^ q := by
  obtain ⟨d, hd, ha, hb⟩ := exists_scale a p b q
  rw [compareScales, compare_lt_iff_lt, ← Nat.cast_lt (α := ℚ), ha, hb, mul_lt_mul_iff_left₀ hd]

theorem compareScales_gt {a : Nat} {p : ℤ} {b : Nat} {q : ℤ} :
    compareScales a p b q = .gt ↔ (b : ℚ) * 10 ^ q < a * 2 ^ p := by
  obtain ⟨d, hd, ha, hb⟩ := exists_scale a p b q
  rw [compareScales, compare_gt_iff_gt, ← Nat.cast_lt (α := ℚ), ha, hb,
    mul_lt_mul_iff_left₀ hd]

theorem compareScales_eq {a : Nat} {p : ℤ} {b : Nat} {q : ℤ} :
    compareScales a p b q = .eq ↔ (a : ℚ) * 2 ^ p = b * 10 ^ q := by
  obtain ⟨d, hd, ha, hb⟩ := exists_scale a p b q
  rw [compareScales, compare_eq_iff_eq, ← Nat.cast_inj (R := ℚ), ha, hb,
    mul_left_inj' hd.ne']

/-- A comparison depends on nothing but the values. -/
theorem compareScales_congr {a : Nat} {p : ℤ} {s t : Scaled} (h : s.value = t.value) :
    compareScales a p s.coefficient s.exponent = compareScales a p t.coefficient t.exponent := by
  have h : (s.coefficient : ℚ) * 10 ^ s.exponent = t.coefficient * 10 ^ t.exponent := h
  cases hs : compareScales a p s.coefficient s.exponent with
  | lt => exact (compareScales_lt.mpr (h ▸ compareScales_lt.mp hs)).symm
  | eq => exact (compareScales_eq.mpr (h ▸ compareScales_eq.mp hs)).symm
  | gt => exact (compareScales_gt.mpr (h ▸ compareScales_gt.mp hs)).symm

/-! ## Grids -/

theorem exists_grid (m : Nat) (p e : ℤ) :
    ∃ n d : Nat, 0 < d ∧ floorOn m p e = n / d ∧ (m : ℚ) * 2 ^ p * d = n * 10 ^ e := by
  refine ⟨_, twoTo (-p).toNat * tenTo e.toNat, ?_, rfl, ?_⟩
  · exact Nat.mul_pos (Nat.pow_pos (by decide)) (Nat.pow_pos (by decide))
  · rw [zpow_eq_div two_ne_zero p, zpow_eq_div (by norm_num : (10 : ℚ) ≠ 0) e]
    simp only [twoTo, tenTo, Nat.pow_eq, Nat.cast_mul, Nat.cast_pow, Nat.cast_ofNat]
    field_simp

theorem floorOn_le (m : Nat) (p e : ℤ) : (floorOn m p e : ℚ) * 10 ^ e ≤ m * 2 ^ p := by
  obtain ⟨n, d, hd, hfloor, hvalue⟩ := exists_grid m p e
  have hle : ((n / d : Nat) : ℚ) * d ≤ n := by
    exact_mod_cast Nat.div_mul_le_self n d
  have hd' : (0 : ℚ) < d := Nat.cast_pos.mpr hd
  have hten : (0 : ℚ) < 10 ^ e := by positivity
  rw [hfloor]
  refine le_of_mul_le_mul_right ?_ hd'
  calc ((n / d : Nat) : ℚ) * 10 ^ e * d = ((n / d : Nat) : ℚ) * d * 10 ^ e := by ring
    _ ≤ n * 10 ^ e := mul_le_mul_of_nonneg_right hle hten.le
    _ = m * 2 ^ p * d := hvalue.symm

theorem lt_floorOn_succ (m : Nat) (p e : ℤ) :
    (m : ℚ) * 2 ^ p < ((floorOn m p e + 1 : Nat) : ℚ) * 10 ^ e := by
  obtain ⟨n, d, hd, hfloor, hvalue⟩ := exists_grid m p e
  have hlt : (n : ℚ) < ((n / d + 1 : Nat) : ℚ) * d := by
    rw [mul_comm]
    exact_mod_cast Nat.lt_mul_div_succ n hd
  have hd' : (0 : ℚ) < d := Nat.cast_pos.mpr hd
  have hten : (0 : ℚ) < 10 ^ e := by positivity
  rw [hfloor]
  refine lt_of_mul_lt_mul_right ?_ hd'.le
  calc (m : ℚ) * 2 ^ p * d = n * 10 ^ e := hvalue
    _ < ((n / d + 1 : Nat) : ℚ) * d * 10 ^ e := mul_lt_mul_of_pos_right hlt hten
    _ = ((n / d + 1 : Nat) : ℚ) * 10 ^ e * d := by ring

/-! ## The leading digit -/

theorem ten_pow_le_two_pow {k : Nat} (h : k < 1100) :
    10 ^ (k * 30103 / 100000) ≤ 10 * 2 ^ k := by
  have hall : ∀ k < 1100, 10 ^ (k * 30103 / 100000) ≤ 10 * 2 ^ k := by
    decide +kernel
  exact hall k h

theorem two_pow_le_ten_pow {k : Nat} (h : k < 1100) :
    2 ^ k ≤ 10 ^ ((k * 30103 + 99999) / 100000 + 1) := by
  have hall : ∀ k < 1100, 2 ^ k ≤ 10 ^ ((k * 30103 + 99999) / 100000 + 1) := by
    decide +kernel
  exact hall k h

/-- The estimate of a decimal exponent from a binary one is too great by one at most. -/
theorem estimate_le {n : ℤ} (hlow : -1100 < n) (hhigh : n < 1100) :
    (10 : ℚ) ^ ((n * 30103).fdiv 100000 - 1) ≤ 2 ^ n := by
  rw [Int.fdiv_eq_ediv_of_nonneg _ (by norm_num)]
  obtain ⟨k, rfl | rfl⟩ := n.eq_nat_or_neg
  · have hk : (10 : ℚ) ^ (k * 30103 / 100000) ≤ 10 * 2 ^ k := by
      exact_mod_cast ten_pow_le_two_pow (k := k) (by omega)
    have he : (k * 30103 : ℤ) / 100000 - 1 = ((k * 30103 / 100000 : Nat) : ℤ) - 1 := by
      omega
    rw [he, zpow_sub_one₀ (by norm_num), zpow_natCast, zpow_natCast]
    linarith
  · have hk : (2 : ℚ) ^ k ≤ 10 ^ ((k * 30103 + 99999) / 100000 + 1) := by
      exact_mod_cast two_pow_le_ten_pow (k := k) (by omega)
    have he : (-(k : ℤ) * 30103) / 100000 - 1 =
        -(((k * 30103 + 99999) / 100000 + 1 : Nat) : ℤ) := by
      omega
    rw [he, zpow_neg, zpow_neg, zpow_natCast, zpow_natCast]
    exact inv_anti₀ (by positivity) hk

/-- Ten to the exponent of the leading digit is not above the number. -/
theorem leading_le {m : Nat} {p : ℤ} (hm : m ≠ 0) (hlow : -1100 < m.log2 + p)
    (hhigh : m.log2 + p < 1100) : (10 : ℚ) ^ leading m p ≤ m * 2 ^ p := by
  have hpow : (2 : ℚ) ^ (m.log2 + p) ≤ m * 2 ^ p := by
    rw [zpow_add₀ two_ne_zero, zpow_natCast]
    refine mul_le_mul_of_nonneg_right ?_ (by positivity)
    exact_mod_cast Nat.log2_self_le hm
  unfold leading
  simp only [beq_iff_eq, compareScales_lt, Nat.cast_one, one_mul]
  split
  · exact (estimate_le hlow hhigh).trans hpow
  · rename_i hguess
    split
    · exact not_lt.mp hguess
    · rename_i hnext
      exact not_lt.mp hnext

/-! ## Intervals -/

theorem contains_bounds {i : Interval} {s : Nat} {e : ℤ} (hi : i.low ≤ i.high)
    (h : i.contains s e = true) :
    (i.low : ℚ) * 2 ^ i.exponent ≤ s * 10 ^ e ∧ (s : ℚ) * 10 ^ e ≤ i.high * 2 ^ i.exponent
      ∧ (i.closed = false → (i.low : ℚ) * 2 ^ i.exponent < s * 10 ^ e
        ∧ (s : ℚ) * 10 ^ e < i.high * 2 ^ i.exponent) := by
  have hle : (i.low : ℚ) * 2 ^ i.exponent ≤ i.high * 2 ^ i.exponent :=
    mul_le_mul_of_nonneg_right (Nat.cast_le.mpr hi) (by positivity)
  unfold Interval.contains at h
  split at h
  · rename_i hlow hhigh
    rw [compareScales_lt] at hlow
    rw [compareScales_gt] at hhigh
    exact ⟨hlow.le, hhigh.le, fun _ => ⟨hlow, hhigh⟩⟩
  · rename_i hlow
    rw [compareScales_eq] at hlow
    exact ⟨hlow.le, hlow ▸ hle, fun hopen => absurd (h.symm.trans hopen) (by decide)⟩
  · rename_i hhigh _
    rw [compareScales_eq] at hhigh
    exact ⟨hhigh ▸ hle, hhigh.ge, fun hopen => absurd (h.symm.trans hopen) (by decide)⟩
  · cases h

theorem contains_congr {i : Interval} {s t : Scaled} (h : s.value = t.value) :
    i.contains s.coefficient s.exponent = i.contains t.coefficient t.exponent := by
  rw [Interval.contains, Interval.contains, compareScales_congr h, compareScales_congr h]

theorem contains_of_between {i : Interval} {s : Nat} {e : ℤ}
    (hlow : (i.low : ℚ) * 2 ^ i.exponent < s * 10 ^ e)
    (hhigh : (s : ℚ) * 10 ^ e < i.high * 2 ^ i.exponent) : i.contains s e = true := by
  rw [Interval.contains, compareScales_lt.mpr hlow, compareScales_gt.mpr hhigh]

end Shortest

end Verdict.Decimal
