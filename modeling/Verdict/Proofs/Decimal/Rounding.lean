import Mathlib
import Verdict.Proofs.Decimal.Fixed
import Verdict.Proofs.Decimal.Shortest
import Verdict.Proofs.Decimal.Whole

/-!
# Numbers that round to a double

A number is rounded to the nearest mantissa, from its whole part and two bits about the rest:
whether that is a half or more, and whether it is neither nothing nor a half.  Every number in the
interval of a double is rounded to that double.
-/

namespace Verdict.Decimal

open Float.Model (UnpackedFloat Format totalExponent)
open Float.Model.UnpackedFloat

/-! ## Nearest whole numbers -/

theorem IsNearest.unique {q : ℚ} {m n : Nat} (hm : IsNearest q m) (hn : IsNearest q n) :
    m = n := by
  obtain ⟨hmlow, hmhigh⟩ := abs_le.mp hm.near
  obtain ⟨hnlow, hnhigh⟩ := abs_le.mp hn.near
  have hle : (m : ℚ) ≤ n + 1 := by linarith
  have hge : (n : ℚ) ≤ m + 1 := by linarith
  norm_cast at hle hge
  -- neighbours that are both as near as a half cannot both be even
  by_contra hne
  obtain h | h : m = n + 1 ∨ n = m + 1 := by omega
  · have hcast : (m : ℚ) = n + 1 := by exact_mod_cast h
    have hmeven := hm.even (by rw [abs_of_nonpos] <;> linarith)
    have hneven := hn.even (by rw [abs_of_nonneg] <;> linarith)
    obtain ⟨i, hi⟩ := hmeven
    obtain ⟨j, hj⟩ := hneven
    omega
  · have hcast : (n : ℚ) = m + 1 := by exact_mod_cast h
    have hmeven := hm.even (by rw [abs_of_nonneg] <;> linarith)
    have hneven := hn.even (by rw [abs_of_nonpos] <;> linarith)
    obtain ⟨i, hi⟩ := hmeven
    obtain ⟨j, hj⟩ := hneven
    omega

/-! ## Mantissas with two bits about the rest -/

def RestOf : Bool → Bool → ℚ → Prop
  | false, false, r => r = 0
  | false, true, r => 0 < r ∧ r < 1 / 2
  | true, false, r => r = 1 / 2
  | true, true, r => 1 / 2 < r ∧ r < 1

/-- A mantissa and its bits describe a number. -/
def Describes (em : ExtendedMantissa) (q : ℚ) : Prop :=
  RestOf em.roundBit em.stickyBit (q - em.mantissa)

variable {em : ExtendedMantissa} {q : ℚ}

theorem RestOf.bounds {roundBit stickyBit : Bool} {r : ℚ} (h : RestOf roundBit stickyBit r) :
    0 ≤ r ∧ r < 1 := by
  cases roundBit <;> cases stickyBit <;> simp only [RestOf] at h <;>
    constructor <;> linarith

theorem Describes.shiftRightOne (h : Describes em q) : Describes em.shiftRightOne (q / 2) := by
  obtain ⟨m, roundBit, stickyBit⟩ := em
  unfold Describes at h ⊢
  change RestOf (m % 2 != 0) (roundBit || stickyBit) (q / 2 - (m / 2 : Nat))
  dsimp only at h
  obtain ⟨k, rfl | rfl⟩ := Nat.even_or_odd' m
  · rw [Nat.mul_mod_right, Nat.mul_div_cancel_left _ two_pos]
    push_cast at h
    cases roundBit <;> cases stickyBit <;> simp only [RestOf] at h ⊢ <;>
      simp only [bne_self_eq_false, Bool.or_false, Bool.or_true] <;>
      first | linarith | (constructor <;> linarith)
  · have hmod : (2 * k + 1) % 2 = 1 := by omega
    have hdiv : (2 * k + 1) / 2 = k := by omega
    rw [hmod, hdiv]
    push_cast at h
    cases roundBit <;> cases stickyBit <;> simp only [RestOf] at h ⊢ <;>
      simp only [bne, Nat.reduceBEq, Bool.not_false, Bool.or_false, Bool.or_true] <;>
      first | linarith | (constructor <;> linarith)

theorem Describes.shiftRight (h : Describes em q) (k : Nat) :
    Describes (em >>> k) (q / 2 ^ k) := by
  induction k with
  | zero => simpa [HShiftRight.hShiftRight, Nat.repeat] using h
  | succ k ih =>
    rw [pow_succ, ← div_div]
    exact ih.shiftRightOne

theorem isNearest_of_lt {n : Nat} (h : |q - n| < 1 / 2) : IsNearest q n :=
  ⟨h.le, fun heq => absurd heq h.ne⟩

theorem Describes.isNearest (h : Describes em q) : IsNearest q em.roundedMantissa := by
  obtain ⟨m, roundBit, stickyBit⟩ := em
  unfold Describes at h
  dsimp only at h
  cases roundBit <;> cases stickyBit <;> simp only [RestOf] at h
  · change IsNearest q m
    refine isNearest_of_lt ?_
    rw [h, abs_zero]
    norm_num
  · change IsNearest q m
    refine isNearest_of_lt ?_
    rw [abs_of_pos h.1]
    exact h.2
  · change IsNearest q (m + m % 2)
    obtain ⟨k, rfl | rfl⟩ := Nat.even_or_odd' m
    · rw [Nat.mul_mod_right, Nat.add_zero]
      exact ⟨by rw [h, abs_of_pos one_half_pos], fun _ => even_two_mul k⟩
    · rw [show (2 * k + 1) % 2 = 1 by omega]
      refine ⟨?_, fun _ => ⟨k + 1, by omega⟩⟩
      push_cast at h ⊢
      rw [abs_of_neg] <;> linarith
  · change IsNearest q (m + 1)
    refine isNearest_of_lt ?_
    push_cast
    rw [abs_of_neg] <;> linarith

/-! ## Numbers in an interval -/

/-- A number in the interval of a double; the ends belong to it if the mantissa is even. -/
structure Covers (b : Binary) (x : ℚ) : Prop where
  low : ((Shortest.interval b).low : ℚ) * 2 ^ (b.exponent - 2) ≤ x
  high : x ≤ (Shortest.interval b).high * 2 ^ (b.exponent - 2)
  inside : Odd b.mantissa → ((Shortest.interval b).low : ℚ) * 2 ^ (b.exponent - 2) < x ∧
    x < (Shortest.interval b).high * 2 ^ (b.exponent - 2)

variable {b : Binary} {x : ℚ}

theorem covers_of_contains {m : Nat} {e : Int} (h : (Shortest.interval b).contains m e = true) :
    Covers b (m * 10 ^ e) := by
  obtain ⟨hlow, hhigh, hinside⟩ := Shortest.contains_bounds (Shortest.low_le_high b) h
  refine ⟨hlow, hhigh, fun hodd => hinside ?_⟩
  rw [Shortest.closed_interval, Nat.odd_iff.mp hodd]
  rfl

namespace Covers

theorem units (hc : Covers b x) :
    ((Shortest.interval b).low : ℚ) / 4 ≤ x / 2 ^ b.exponent ∧
      x / 2 ^ b.exponent ≤ b.mantissa + 1 / 2 := by
  have hunit : (0 : ℚ) < 2 ^ b.exponent := by positivity
  have hlow := hc.low
  have hhigh := hc.high
  rw [Shortest.two_zpow_sub_two] at hlow hhigh
  rw [Shortest.high_interval] at hhigh
  push_cast at hhigh
  rw [le_div_iff₀ hunit, div_le_iff₀ hunit]
  constructor <;> linarith

theorem low_units (b : Binary) :
    (b.mantissa : ℚ) - 1 / 2 ≤ ((Shortest.interval b).low : ℚ) / 4 := by
  have hle : 4 * b.mantissa ≤ (Shortest.interval b).low + 2 := by
    rcases Shortest.low_interval b with ⟨h, -⟩ | ⟨h, -⟩ <;> omega
  have hcast : (4 : ℚ) * b.mantissa ≤ (Shortest.interval b).low + 2 := by exact_mod_cast hle
  linarith

theorem isNearest (hc : Covers b x) :
    IsNearest (x / 2 ^ b.exponent) b.mantissa := by
  obtain ⟨hlow, hhigh⟩ := hc.units
  have hbelow := low_units b
  refine ⟨abs_le.mpr ⟨by linarith, by linarith⟩, fun heq => ?_⟩
  by_contra heven
  obtain ⟨hlow, hhigh⟩ := hc.inside (Nat.not_even_iff_odd.mp heven)
  have hunit : (0 : ℚ) < 2 ^ b.exponent := by positivity
  rw [Shortest.two_zpow_sub_two] at hlow hhigh
  rw [Shortest.high_interval] at hhigh
  push_cast at hhigh
  rcases abs_eq one_half_pos.le |>.mp heq with h | h
  · have hx : x = (b.mantissa + 1 / 2) * 2 ^ b.exponent := by
      rw [← div_eq_iff hunit.ne']
      linarith
    linarith
  · have hx : x = (b.mantissa - 1 / 2) * 2 ^ b.exponent := by
      rw [← div_eq_iff hunit.ne']
      linarith
    have hmul := mul_le_mul_of_nonneg_right hbelow hunit.le
    linarith

end Covers

/-! ## Rounding -/

def grid (m : Nat) (e : Int) : Int :=
  Format.binary64.targetExponent (totalExponent m e)

theorem grid_eq (m : Nat) (e : Int) : grid m e = max ((m.log2 : Int) + e - 52) (-1074) := by
  change max ((m.log2 : Int) + 1 + e - 53) (-1074) = _
  congr 1
  omega

section Round

variable {m : Nat} {e : Int} {a : Accuracy}

theorem mantissa_ofMantissaAndAccuracy (m : Nat) (a : Accuracy) :
    (ExtendedMantissa.ofMantissaAndAccuracy m a).mantissa = m := by
  rcases a with _ | o
  · rfl
  · cases o <;> rfl

/-- A mantissa is at most one below the number that it is the start of. -/
theorem Describes.bounds (h : Describes (.ofMantissaAndAccuracy m a) q) :
    (m : ℚ) ≤ q ∧ q < m + 1 := by
  have hrest := RestOf.bounds h
  rw [mantissa_ofMantissaAndAccuracy] at hrest
  constructor <;> linarith [hrest.1, hrest.2]

theorem Describes.lt_two_zpow (h : Describes (.ofMantissaAndAccuracy m a) q) :
    q * 2 ^ e < 2 ^ ((m.log2 : Int) + 1 + e) := by
  have hlt : (m : ℚ) + 1 ≤ 2 ^ (m.log2 + 1) := by exact_mod_cast Nat.lt_log2_self
  rw [zpow_add₀ two_ne_zero, mul_lt_mul_iff_left₀ (by positivity)]
  exact h.bounds.2.trans_le (by exact_mod_cast hlt)

theorem Describes.two_zpow_le (h : Describes (.ofMantissaAndAccuracy m a) q) (hm : m ≠ 0) :
    (2 : ℚ) ^ ((m.log2 : Int) + e) ≤ q * 2 ^ e := by
  have hle : (2 : ℚ) ^ m.log2 ≤ m := by exact_mod_cast Nat.log2_self_le hm
  rw [zpow_add₀ two_ne_zero, mul_le_mul_iff_left₀ (by positivity), zpow_natCast]
  exact hle.trans h.bounds.1

theorem Describes.shifted (h : Describes (.ofMantissaAndAccuracy m a) q) (he : e ≤ grid m e) :
    ∃ em, shiftToTargetExponent Format.binary64 m e a = (em, grid m e) ∧
      Describes em (q * 2 ^ e / 2 ^ grid m e) := by
  refine ⟨_, Prod.ext rfl ?_, ?_⟩
  · change e + ((grid m e - e).toNat : Int) = grid m e
    omega
  · have hpow : (2 : ℚ) ^ grid m e = 2 ^ e * 2 ^ (grid m e - e).toNat := by
      rw [← zpow_natCast, ← zpow_add₀ two_ne_zero]
      congr 1
      omega
    have hq : q * 2 ^ e / 2 ^ grid m e = q / 2 ^ (grid m e - e).toNat := by
      rw [hpow]
      field_simp
    rw [hq]
    exact h.shiftRight _

/-- The second shift moves nothing that fits. -/
theorem shiftToTargetExponent_of_lt (hm : m < 2 ^ 53) (he : -1074 ≤ e) :
    shiftToTargetExponent Format.binary64 m e .exact = (.mk m false false, e) := by
  have hlog : m.log2 < 53 := by
    rcases Nat.eq_zero_or_pos m with rfl | hpos
    · decide
    · exact (Nat.log2_lt hpos.ne').mpr hm
  have hgrid : (grid m e - e).toNat = 0 := by
    rw [grid_eq]
    omega
  change ((ExtendedMantissa.mk m false false) >>> (grid m e - e).toNat,
    e + ((grid m e - e).toNat : Int)) = _
  rw [hgrid, Nat.cast_zero, add_zero]
  rfl

theorem shiftToTargetExponent_top (he : -1074 ≤ e) :
    shiftToTargetExponent Format.binary64 (2 ^ 53) e .exact =
      (.mk (2 ^ 52) false false, e + 1) := by
  have hgrid : (grid (2 ^ 53) e - e).toNat = 1 := by
    rw [grid_eq, Nat.log2_two_pow]
    omega
  change ((ExtendedMantissa.mk (2 ^ 53) false false) >>> (grid (2 ^ 53) e - e).toNat,
    e + ((grid (2 ^ 53) e - e).toNat : Int)) = _
  rw [hgrid]
  rfl

theorem le_grid (m : Nat) (e : Int) : -1074 ≤ grid m e := by
  rw [grid_eq]
  omega

theorem Describes.roundWithAccuracy_eq (h : Describes (.ofMantissaAndAccuracy m a) q)
    (he : e ≤ grid m e) {n : Nat} (hn : IsNearest (q * 2 ^ e / 2 ^ grid m e) n) (hpos : 0 < n)
    (hlt : n < 2 ^ 53) (s : Sign) :
    roundWithAccuracy Format.binary64 s m e a = .finite s n (grid m e) hpos := by
  obtain ⟨em, hfirst, hem⟩ := h.shifted he
  have hrounded : em.roundedMantissa = n := hem.isNearest.unique hn
  unfold roundWithAccuracy
  rw [hfirst]
  simp only [hrounded, shiftToTargetExponent_of_lt hlt (le_grid m e)]
  exact dif_neg hpos.ne'

/-- A number that is nearest to the next power of two gets its exponent. -/
theorem Describes.roundWithAccuracy_top (h : Describes (.ofMantissaAndAccuracy m a) q)
    (he : e ≤ grid m e) (hn : IsNearest (q * 2 ^ e / 2 ^ grid m e) (2 ^ 53)) (s : Sign) :
    roundWithAccuracy Format.binary64 s m e a =
      .finite s (2 ^ 52) (grid m e + 1) (by decide) := by
  obtain ⟨em, hfirst, hem⟩ := h.shifted he
  have hrounded : em.roundedMantissa = 2 ^ 53 := hem.isNearest.unique hn
  unfold roundWithAccuracy
  rw [hfirst]
  simp only [hrounded, shiftToTargetExponent_top (le_grid m e)]
  exact dif_neg (by decide)

/-- The grid is not coarser than the units of a double whose interval has the number. -/
theorem Describes.grid_le (h : Describes (.ofMantissaAndAccuracy m a) q) (he : e ≤ grid m e)
    (hb : b.Normal) (hc : Covers b (q * 2 ^ e)) : grid m e ≤ b.exponent := by
  by_contra hlt
  rw [not_le] at hlt
  have hgrid := grid_eq m e
  have hleast := hb.least
  have hm : m ≠ 0 := by
    rintro rfl
    rw [Nat.log2_zero] at hgrid
    omega
  have hlow : (2 : ℚ) ^ (b.exponent + 53) ≤ q * 2 ^ e :=
    (zpow_le_zpow_right₀ one_le_two (by omega)).trans (h.two_zpow_le hm)
  have hhigh := hc.units.2
  rw [div_le_iff₀ (by positivity)] at hhigh
  have hmantissa : (b.mantissa : ℚ) + 1 ≤ 2 ^ 53 := by exact_mod_cast hb.lt
  have hunit : (0 : ℚ) < 2 ^ b.exponent := by positivity
  rw [zpow_add₀ two_ne_zero, show ((2 : ℚ) ^ (53 : ℤ)) = 2 ^ 53 by norm_cast] at hlow
  nlinarith

theorem Describes.power_of_lt (h : Describes (.ofMantissaAndAccuracy m a) q) (hb : b.Normal)
    (hc : Covers b (q * 2 ^ e)) (hlt : grid m e < b.exponent) :
    b.mantissa = 2 ^ 52 ∧ grid m e + 1 = b.exponent ∧
      IsNearest (q * 2 ^ e / 2 ^ grid m e) (2 ^ 53) := by
  have hgrid := grid_eq m e
  have hleading := hb.leading (lt_of_le_of_lt (le_grid m e) hlt)
  have hunit : (0 : ℚ) < 2 ^ b.exponent := by positivity
  obtain ⟨hlow, -⟩ := hc.units
  rw [le_div_iff₀ hunit] at hlow
  -- the number lies below the power of two, and the interval above its neighbour
  have hbelow : q * 2 ^ e < 2 ^ 52 * 2 ^ b.exponent := by
    calc q * 2 ^ e < 2 ^ ((m.log2 : Int) + 1 + e) := h.lt_two_zpow
      _ ≤ 2 ^ ((52 : ℤ) + b.exponent) := zpow_le_zpow_right₀ one_le_two (by omega)
      _ = 2 ^ 52 * 2 ^ b.exponent := by rw [zpow_add₀ two_ne_zero]; norm_cast
  have hlt' : ((Shortest.interval b).low : ℚ) < 4 * 2 ^ 52 := by
    have := lt_of_mul_lt_mul_right (hlow.trans_lt hbelow) hunit.le
    linarith
  have hlow' : (Shortest.interval b).low < 4 * 2 ^ 52 := by exact_mod_cast hlt'
  obtain ⟨hinterval, hpower, -⟩ | ⟨hinterval, hleast⟩ := Shortest.low_interval b
  · have hquarter : (2 ^ 52 - 1 / 4) * 2 ^ b.exponent ≤ q * 2 ^ e := by
      rw [hinterval, hpower] at hlow
      norm_num at hlow ⊢
      exact hlow
    have hexponent : grid m e + 1 = b.exponent := by
      by_contra hne
      have hfar : q * 2 ^ e < 2 ^ 51 * 2 ^ b.exponent := by
        calc q * 2 ^ e < 2 ^ ((m.log2 : Int) + 1 + e) := h.lt_two_zpow
          _ ≤ 2 ^ ((51 : ℤ) + b.exponent) := zpow_le_zpow_right₀ one_le_two (by omega)
          _ = 2 ^ 51 * 2 ^ b.exponent := by rw [zpow_add₀ two_ne_zero]; norm_cast
      have := lt_of_mul_lt_mul_right (hquarter.trans_lt hfar) hunit.le
      norm_num at this
    refine ⟨hpower, hexponent, ?_⟩
    have hhalf : (2 : ℚ) ^ b.exponent = 2 * 2 ^ grid m e := by
      rw [← hexponent, zpow_add₀ two_ne_zero, zpow_one, mul_comm]
    have hsmall : (0 : ℚ) < 2 ^ grid m e := by positivity
    rw [hhalf] at hquarter hbelow
    refine ⟨abs_le.mpr ⟨?_, ?_⟩, fun _ => ⟨2 ^ 52, by norm_num⟩⟩
    · rw [neg_le_sub_iff_le_add, ← sub_le_iff_le_add, le_div_iff₀ hsmall]
      push_cast
      linarith
    · rw [sub_le_iff_le_add, div_le_iff₀ hsmall]
      push_cast
      linarith
  · have hpower : b.mantissa = 2 ^ 52 := by omega
    have := hleast hpower
    have := le_grid m e
    omega

theorem Describes.roundWithAccuracy_of_covers (h : Describes (.ofMantissaAndAccuracy m a) q)
    (he : e ≤ grid m e) (hb : b.Normal) (hm : 0 < b.mantissa) (hc : Covers b (q * 2 ^ e))
    (s : Sign) :
    roundWithAccuracy Format.binary64 s m e a = .finite s b.mantissa b.exponent hm := by
  rcases (h.grid_le he hb hc).lt_or_eq with hlt | heq
  · obtain ⟨hpower, hexponent, hnearest⟩ := h.power_of_lt hb hc hlt
    rw [h.roundWithAccuracy_top he hnearest, UnpackedFloat.finite.injEq]
    exact ⟨rfl, hpower.symm, hexponent⟩
  · have hnearest : IsNearest (q * 2 ^ e / 2 ^ grid m e) b.mantissa := by
      rw [heq]
      exact hc.isNearest
    rw [h.roundWithAccuracy_eq he hnearest hm hb.lt, UnpackedFloat.finite.injEq]
    exact ⟨rfl, rfl, heq⟩

end Round

end Verdict.Decimal
