import Mathlib
import Verdict.Decimal.Reading
import Verdict.Proofs.Decimal.Rounding
import Verdict.Proofs.Decimal.Text

/-!
# Decimals are read as the nearest double

A decimal is a whole number times or over a power of ten, and both ways the result is rounded once,
from its exact value.  So each decimal in the interval of a double is read as that double; and the
digits that a double is written with are in its interval.
-/

namespace Verdict.Decimal

open Float.Model (UnpackedFloat Format totalExponent)
open Float.Model.UnpackedFloat

variable {b : Binary}

/-! ## Products and quotients -/

section Operations

variable {m n : Nat} {e f : Int} (hm : 0 < m) (hn : 0 < n)

/-- An exact product in the interval of a double is rounded to it. -/
theorem mul_of_covers (hlog : 52 ≤ (m * n).log2) (hb : b.Normal) (hpos : 0 < b.mantissa)
    (hc : Covers b (m * 2 ^ e * (n * 2 ^ f))) :
    UnpackedFloat.mul Format.binary64 (.finite .positive m e hm) (.finite .positive n f hn) =
      .finite .positive b.mantissa b.exponent hpos := by
  have hdescribes : Describes (.ofMantissaAndAccuracy (m * n) .exact) ((m * n : Nat) : ℚ) :=
    sub_self _
  have hgrid : e + f ≤ grid (m * n) (e + f) := by
    rw [grid_eq]
    omega
  have hvalue : ((m * n : Nat) : ℚ) * 2 ^ (e + f) = m * 2 ^ e * (n * 2 ^ f) := by
    rw [zpow_add₀ two_ne_zero]
    push_cast
    ring
  exact hdescribes.roundWithAccuracy_of_covers hgrid hb hpos (hvalue ▸ hc) _

theorem describes_quotient (m : Nat) (hn : 0 < n) :
    Describes (.ofMantissaAndAccuracy (m / n) (accuracyOfFraction (m % n) n)) ((m : ℚ) / n) := by
  have hn' : (0 : ℚ) < n := Nat.cast_pos.mpr hn
  have hrest : (m : ℚ) / n - (m / n : Nat) = (m % n : Nat) / n := by
    have hsplit : (m : ℚ) = n * (m / n : Nat) + (m % n : Nat) := by
      exact_mod_cast (Nat.div_add_mod m n).symm
    rw [eq_div_iff hn'.ne', sub_mul, div_mul_cancel₀ _ hn'.ne']
    linarith
  have hlt : m % n < n := Nat.mod_lt m hn
  unfold Describes
  rw [mantissa_ofMantissaAndAccuracy, hrest]
  generalize m % n = r at hlt
  have hlt' : (r : ℚ) < n := Nat.cast_lt.mpr hlt
  unfold accuracyOfFraction
  split_ifs with hzero
  · rw [hzero, Nat.cast_zero, zero_div]
    exact rfl
  · have hpos : (0 : ℚ) < r := Nat.cast_pos.mpr (Nat.pos_of_ne_zero hzero)
    cases horder : compare (2 * r) n with
    | lt =>
      have hhalf : (2 : ℚ) * r < n := by exact_mod_cast compare_lt_iff_lt.mp horder
      refine ⟨div_pos hpos hn', ?_⟩
      rw [div_lt_div_iff₀ hn' two_pos]
      linarith
    | eq =>
      have hhalf : (2 : ℚ) * r = n := by exact_mod_cast compare_eq_iff_eq.mp horder
      change (r : ℚ) / n = 1 / 2
      rw [div_eq_div_iff hn'.ne' two_ne_zero]
      linarith
    | gt =>
      have hhalf : (n : ℚ) < 2 * r := by exact_mod_cast compare_gt_iff_gt.mp horder
      refine ⟨?_, (div_lt_one hn').mpr hlt'⟩
      rw [div_lt_div_iff₀ two_pos hn']
      linarith

theorem le_log2_quotient {k : Nat} (hm : m ≠ 0) (hn : 0 < n) (h : n.log2 + 1 + k ≤ m.log2) :
    k ≤ (m / n).log2 := by
  have hle : 2 ^ k ≤ m / n := by
    rw [Nat.le_div_iff_mul_le hn]
    calc 2 ^ k * n ≤ 2 ^ k * 2 ^ (n.log2 + 1) := Nat.mul_le_mul_left _ Nat.lt_log2_self.le
      _ = 2 ^ (n.log2 + 1 + k) := by rw [← pow_add, Nat.add_comm k]
      _ ≤ 2 ^ m.log2 := Nat.pow_le_pow_right two_pos h
      _ ≤ m := Nat.log2_self_le hm
  have hne : m / n ≠ 0 := (Nat.two_pow_pos k |>.trans_le hle).ne'
  exact (Nat.le_log2 hne).mpr hle

/-- An exact quotient in the interval of a double is rounded to it. -/
theorem div_of_covers (hb : b.Normal) (hpos : 0 < b.mantissa)
    (hc : Covers b (m * 2 ^ e / (n * 2 ^ f))) :
    UnpackedFloat.div Format.binary64 (.finite .positive m e hm) (.finite .positive n f hn) =
      .finite .positive b.mantissa b.exponent hpos := by
  -- the dividend is shifted until the quotient has all bits of a mantissa
  let t := min (e - f) (Format.binary64.targetExponent (totalExponent m e - totalExponent n f))
  let k := (e - f - t).toNat
  have hk : t + k = e - f := by omega
  have htarget : t ≤ max ((m.log2 : Int) + e - (n.log2 + f) - 53) (-1074) := by
    change min (e - f) (max ((m.log2 : Int) + 1 + e - (n.log2 + 1 + f) - 53) (-1074)) ≤ _
    omega
  have hn' : (0 : ℚ) < n := Nat.cast_pos.mpr hn
  have hdescribes := describes_quotient (m * 2 ^ k) hn
  have hgrid : t ≤ grid (m * 2 ^ k / n) t := by
    rw [grid_eq]
    by_cases hleast : t ≤ -1074
    · omega
    · have hlog : (m * 2 ^ k).log2 = m.log2 + k := log2_mul_two_pow hm.ne' k
      have := le_log2_quotient (k := 52) (m := m * 2 ^ k) (by positivity) hn (by omega)
      omega
  have hvalue : ((m * 2 ^ k : Nat) : ℚ) / n * 2 ^ t = m * 2 ^ e / (n * 2 ^ f) := by
    have hpow : (2 : ℚ) ^ k * 2 ^ t = 2 ^ e / 2 ^ f := by
      rw [← zpow_natCast, ← zpow_add₀ two_ne_zero, ← zpow_sub₀ two_ne_zero, add_comm, hk]
    push_cast
    rw [div_mul_eq_mul_div, mul_assoc, hpow]
    field_simp
  have hround := hdescribes.roundWithAccuracy_of_covers hgrid hb hpos (hvalue ▸ hc) .positive
  change roundWithAccuracy Format.binary64 .positive ((m <<< k) / n) t
    (accuracyOfFraction ((m <<< k) % n) n) = _
  rw [Nat.shiftLeft_eq]
  exact hround

end Operations

/-! ## Doubles of given parts -/

def ofParts (s : Sign) (b : Binary) (hpos : 0 < b.mantissa) : Float :=
  .ofModel (.pack (.finite s b.mantissa b.exponent hpos))

theorem toBits_ofParts_of_lt (hpos : 0 < b.mantissa) (hb : b.Normal) (hlt : b.mantissa < 2 ^ 52)
    (s : Sign) :
    b.exponent = -1074 ∧
      (ofParts s b hpos).toBits.toNat = s.toBitVec.toNat * 2 ^ 63 + b.mantissa := by
  have hleast : b.exponent = -1074 := by
    by_contra hne
    have := hb.least
    have := hb.leading (by omega)
    omega
  refine ⟨hleast, ?_⟩
  have hlog : ¬b.mantissa.log2 + 1 = Format.binary64.mantissaBits := by
    have := (Nat.log2_lt hpos.ne').mpr hlt
    change ¬_ = 53
    omega
  have hfits : ¬2 ^ 11 ≤ (b.exponent + Format.binary64.exponentBias + (52 : Nat)).toNat + 1 := by
    change ¬2 ^ 11 ≤ (b.exponent + 1023 + 52).toNat + 1
    omega
  change (UnpackedFloat.pack Format.binary64 _).toNat = _
  unfold UnpackedFloat.pack
  dsimp only
  rw [if_neg hfits, if_neg hlog, toNat_packComponents, BitVec.toNat_ofNat, BitVec.toNat_ofNat,
    Nat.mod_eq_of_lt hlt]
  omega

theorem ofFloat_ofParts (hb : b.Normal) (hpos : 0 < b.mantissa) (hle : b.exponent ≤ 971)
    (s : Sign) : Binary.ofFloat (ofParts s b hpos) = ⟨s == .negative, b.mantissa, b.exponent⟩ := by
  by_cases hlt : b.mantissa < 2 ^ 52
  · obtain ⟨hexponent, hbits⟩ := toBits_ofParts_of_lt hpos hb hlt s
    generalize ofParts s b hpos = x at hbits
    have hs : s.toBitVec.toNat < 2 := s.toBitVec.isLt
    have hmantissa' := Binary.mantissa_ofFloat x
    have hexponent' := Binary.exponent_ofFloat x
    have hnegative : (Binary.ofFloat x).negative = (s == .negative) := by
      change (x.toBits.toNat / 2 ^ 63 == 1) = _
      rw [show x.toBits.toNat / 2 ^ 63 = s.toBitVec.toNat by omega]
      cases s <;> rfl
    rw [← hnegative, show b.mantissa = (Binary.ofFloat x).mantissa by omega,
      show b.exponent = (Binary.ofFloat x).exponent by omega]
  · have hfull : Full b.mantissa b.exponent := ⟨not_lt.mp hlt, hb.lt, hb.least, hle⟩
    exact hfull.ofFloat_toFloat s

/-! ## Powers of ten -/

theorem powers_eq : ∀ k (h : k < Float.exactlyRepresentablePowersOfTen.size),
    let x := Float.exactlyRepresentablePowersOfTen[k]
    let b := Binary.ofFloat x
    x.toBits.toNat / 2 ^ 52 % 2 ^ 11 ≠ 2047 ∧ b.negative = false ∧ 2 ^ 52 ≤ b.mantissa ∧
      b.mantissa * 2 ^ b.exponent.toNat = 10 ^ k * 2 ^ (-b.exponent).toNat := by
  decide

theorem exists_power {k : Nat} (h : k < Float.exactlyRepresentablePowersOfTen.size) :
    ∃ m e, ∃ hm : 0 < m,
      Float.exactlyRepresentablePowersOfTen[k].toModel.unpack = .finite .positive m e hm ∧
      (m : ℚ) * 2 ^ e = 10 ^ k ∧ 2 ^ 52 ≤ m := by
  obtain ⟨hfield, hnegative, hmantissa, hvalue⟩ := powers_eq k h
  generalize Float.exactlyRepresentablePowersOfTen[k] = x at *
  have hpos : 0 < (Binary.ofFloat x).mantissa := lt_of_lt_of_le (by decide) hmantissa
  have hunpack := unpack_eq x
  rw [if_neg hfield, dif_neg hpos.ne', Binary.sign, hnegative] at hunpack
  refine ⟨_, _, hpos, hunpack, ?_, hmantissa⟩
  rw [Shortest.zpow_eq_div two_ne_zero, ← mul_div_assoc, div_eq_iff (by positivity)]
  exact_mod_cast hvalue

/-! ## Decimals in an interval -/

namespace Covers

variable {x : ℚ}

/-- Numbers that are read as doubles lie in the range that is not cut off. -/
theorem range (hc : Covers b x) (hb : b.Normal) (hpos : 0 < b.mantissa) (hle : b.exponent ≤ 971) :
    (10 : ℚ) ^ (-324 : ℤ) < x ∧ x < 10 ^ (309 : ℤ) := by
  obtain ⟨hlow, hhigh⟩ := hc.units
  have hbelow := low_units b
  have hunit : (0 : ℚ) < 2 ^ b.exponent := by positivity
  rw [div_le_iff₀ hunit] at hhigh
  rw [le_div_iff₀ hunit] at hlow
  have hone : (1 : ℚ) ≤ b.mantissa := by exact_mod_cast hpos
  have hmantissa : (b.mantissa : ℚ) + 1 ≤ 2 ^ 53 := by exact_mod_cast hb.lt
  constructor
  · calc (10 : ℚ) ^ (-324 : ℤ) < 2 ^ (-1075 : ℤ) := by
          rw [zpow_neg, zpow_neg, inv_lt_inv₀ (by positivity) (by positivity)]
          exact_mod_cast (show 2 ^ 1075 < 10 ^ 324 by decide +kernel)
      _ = 1 / 2 * 2 ^ (-1074 : ℤ) := by
          rw [show (-1075 : ℤ) = -1074 - 1 by norm_num, zpow_sub_one₀ two_ne_zero]
          ring
      _ ≤ 1 / 2 * 2 ^ b.exponent :=
          mul_le_mul_of_nonneg_left (zpow_le_zpow_right₀ one_le_two hb.least) (by norm_num)
      _ ≤ (Shortest.interval b).low / 4 * 2 ^ b.exponent :=
          mul_le_mul_of_nonneg_right (by linarith) hunit.le
      _ ≤ x := hlow
  · calc x ≤ (b.mantissa + 1 / 2) * 2 ^ b.exponent := hhigh
      _ < 2 ^ 53 * 2 ^ b.exponent := mul_lt_mul_of_pos_right (by linarith) hunit
      _ ≤ 2 ^ 53 * 2 ^ (971 : ℤ) :=
          mul_le_mul_of_nonneg_left (zpow_le_zpow_right₀ one_le_two hle) (by norm_num)
      _ < 10 ^ (309 : ℤ) := by
          exact_mod_cast (show 2 ^ 53 * 2 ^ 971 < 10 ^ 309 by decide +kernel)

end Covers

theorem length_digits {m : Nat} (hm : m ≠ 0) :
    10 ^ ((digits m).length - 1) ≤ m ∧ m < 10 ^ (digits m).length := by
  have hpos : 0 < (digits m).length := List.length_pos_iff.mpr Nat.toDigits_ne_nil
  constructor
  · by_contra hlt
    rcases Nat.eq_or_lt_of_le (Nat.one_le_iff_ne_zero.mpr hpos.ne') with h | h
    · rw [← h] at hlt
      omega
    · have := (Nat.length_toDigits_le_iff (by decide) (by omega)).mpr (not_le.mp hlt)
      change (digits m).length ≤ _ at this
      omega
  · exact (Nat.length_toDigits_le_iff (by decide) hpos).mp le_rfl

/-- The place of the first digit of a number in the range. -/
theorem top_bounds {m : Nat} {e : Int} (hm : m ≠ 0) (hlow : (10 : ℚ) ^ (-324 : ℤ) < m * 10 ^ e)
    (hhigh : (m : ℚ) * 10 ^ e < 10 ^ (309 : ℤ)) :
    -324 < (digits m).length + e ∧ (digits m).length + e ≤ 309 := by
  obtain ⟨hge, hlt⟩ := length_digits hm
  have hone : (1 : ℚ) < 10 := by norm_num
  have hpow : (0 : ℚ) < 10 ^ e := by positivity
  constructor
  · have hlt' : (m : ℚ) < 10 ^ ((digits m).length : ℤ) := by exact_mod_cast hlt
    have := hlow.trans (mul_lt_mul_of_pos_right hlt' hpow)
    rw [← zpow_add₀ (by norm_num)] at this
    exact (zpow_lt_zpow_iff_right₀ hone).mp this
  · have hge' : (10 : ℚ) ^ (((digits m).length - 1 : Nat) : ℤ) ≤ m := by exact_mod_cast hge
    have := (mul_le_mul_of_nonneg_right hge' hpow.le).trans_lt hhigh
    rw [← zpow_add₀ (by norm_num)] at this
    have := (zpow_lt_zpow_iff_right₀ hone).mp this
    omega

/-! ## Reading -/

section Reading

variable {m : Nat} {e : Int} (hm : m ≠ 0) (hb : b.Normal) (hpos : 0 < b.mantissa)

include hm hb

theorem ofScientific_of_short (hlt : m < 2 ^ 53) (he : e.natAbs ≤ 22) (hc : Covers b (m * 10 ^ e)) :
    Float.ofScientific m (decide (e < 0)) e.natAbs = ofParts .positive b hpos := by
  have hsize : e.natAbs < Float.exactlyRepresentablePowersOfTen.size :=
    Nat.lt_succ_of_le he
  obtain ⟨p, f, hp, hpower, hvalue, hleast⟩ := exists_power hsize
  have hmpos : 0 < m := Nat.pos_of_ne_zero hm
  have hfull := full_of_lt hmpos hlt
  have hnumber : ((m * 2 ^ room m : Nat) : ℚ) * 2 ^ (-(room m : Int)) = m := by
    push_cast
    rw [mul_assoc, ← zpow_natCast, ← zpow_add₀ two_ne_zero, add_neg_cancel, zpow_zero, mul_one]
  unfold Float.ofScientific
  rw [dif_pos ⟨hlt, he⟩]
  dsimp only
  by_cases hneg : e < 0
  · rw [if_pos (decide_eq_true hneg), toFloat_toUInt64 hmpos hlt]
    have hx : (m : ℚ) * 10 ^ e = ((m * 2 ^ room m : Nat) : ℚ) * 2 ^ (-(room m : Int)) /
        ((p : ℚ) * 2 ^ f) := by
      rw [hnumber, hvalue, div_eq_mul_inv, ← zpow_natCast, ← zpow_neg]
      congr 2
      omega
    have hdiv := div_of_covers hfull.pos hp hb hpos (hx ▸ hc)
    change Float.ofModel (.pack (UnpackedFloat.div Format.binary64
      (hfull.toFloat .positive).toModel.unpack
      (Float.exactlyRepresentablePowersOfTen[e.natAbs]).toModel.unpack)) = _
    rw [hfull.unpack_toFloat, hpower, hdiv]
    rfl
  · rw [if_neg (by simpa using hneg), toFloat_toUInt64 hmpos hlt]
    have hx : (m : ℚ) * 10 ^ e = ((m * 2 ^ room m : Nat) : ℚ) * 2 ^ (-(room m : Int)) *
        ((p : ℚ) * 2 ^ f) := by
      rw [hnumber, hvalue, ← zpow_natCast]
      congr 2
      omega
    have hlog : 52 ≤ (m * 2 ^ room m * p).log2 := by
      refine (Nat.le_log2 (Nat.mul_pos hfull.pos hp).ne').mpr ?_
      exact hfull.low.trans (Nat.le_mul_of_pos_right _ hp)
    have hmul := mul_of_covers hfull.pos hp hlog hb hpos (hx ▸ hc)
    change Float.ofModel (.pack (UnpackedFloat.mul Format.binary64
      (hfull.toFloat .positive).toModel.unpack
      (Float.exactlyRepresentablePowersOfTen[e.natAbs]).toModel.unpack)) = _
    rw [hfull.unpack_toFloat, hpower, hmul]
    rfl

/-- Other decimals are a product or a quotient of whole numbers. -/
theorem ofScientific_of_covers (hlow : -2048 - (m.log2 : Int) ≤ e) (hhigh : e ≤ 2048)
    (hc : Covers b (m * 10 ^ e)) :
    UnpackedFloat.ofScientific Format.binary64 m e =
      .finite .positive b.mantissa b.exponent hpos := by
  have hmpos : 0 < m := Nat.pos_of_ne_zero hm
  unfold UnpackedFloat.ofScientific
  rw [dif_neg hm, if_neg (by change ¬e > 2048; omega),
    if_neg (by change ¬e < -(2048 + (m.log2 : Int)); omega)]
  by_cases hneg : 0 ≤ e
  · rw [if_pos hneg]
    have hx : (m : ℚ) * (10 : ℚ) ^ e = ((m <<< 53 : Nat) : ℚ) * 2 ^ (-53 : Int) *
        (((10 ^ e.toNat : Nat) : ℚ) * 2 ^ (0 : Int)) := by
      have hten : (10 : ℚ) ^ e = 10 ^ e.toNat := by
        rw [← zpow_natCast, Int.toNat_of_nonneg hneg]
      have htwo : ((2 ^ 53 : Nat) : ℚ) * 2 ^ (-53 : Int) = 1 := by norm_num
      rw [Nat.shiftLeft_eq, hten, Nat.cast_mul, mul_assoc (m : ℚ), htwo, zpow_zero, mul_one,
        mul_one, Nat.cast_pow]
      rfl
    have hlog : 52 ≤ (m <<< 53 * 10 ^ e.toNat).log2 := by
      have hle : 2 ^ 52 ≤ m <<< 53 * 10 ^ e.toNat := by
        rw [Nat.shiftLeft_eq]
        calc 2 ^ 52 ≤ 1 * 2 ^ 53 * 1 := by norm_num
          _ ≤ m * 2 ^ 53 * 10 ^ e.toNat :=
            Nat.mul_le_mul (Nat.mul_le_mul_right _ hmpos) (Nat.one_le_pow _ _ (by decide))
      exact (Nat.le_log2 (Nat.two_pow_pos 52 |>.trans_le hle).ne').mpr hle
    exact mul_of_covers _ _ hlog hb hpos (hx ▸ hc)
  · rw [if_neg hneg]
    have hx : (m : ℚ) * (10 : ℚ) ^ e = (m : ℚ) * 2 ^ (0 : Int) /
        (((10 ^ (-e).toNat : Nat) : ℚ) * 2 ^ (0 : Int)) := by
      have hten : (10 : ℚ) ^ e = (10 ^ (-e).toNat)⁻¹ := by
        rw [← zpow_natCast, Int.toNat_of_nonneg (by omega), zpow_neg, inv_inv]
      rw [hten, zpow_zero, mul_one, mul_one, div_eq_mul_inv]
      push_cast
      rfl
    exact div_of_covers hmpos (by positivity) hb hpos (hx ▸ hc)

/-- A decimal in the interval of a finite double is read as that double. -/
theorem toFloat_of_contains (hle : b.exponent ≤ 971)
    (h : (Shortest.interval b).contains m e = true) : toFloat m e = ofParts .positive b hpos := by
  have hc := covers_of_contains h
  obtain ⟨hlow, hhigh⟩ := hc.range hb hpos hle
  obtain ⟨hleast, hmost⟩ := top_bounds hm hlow hhigh
  have hlength : (digits m).length ≤ m.log2 + 1 := by
    refine (Nat.length_toDigits_le_iff (by decide) (by omega)).mpr ?_
    exact Nat.lt_log2_self.trans_le (Nat.pow_le_pow_left (by decide) _)
  unfold toFloat
  rw [if_neg hm]
  dsimp only
  rw [if_neg (by omega), if_neg (by omega)]
  by_cases hshort : m < 2 ^ 53 ∧ e.natAbs ≤ 22
  · exact ofScientific_of_short hm hb hpos hshort.1 hshort.2 hc
  · have hexponent :
        (if decide (e < 0) then Int.negOfNat e.natAbs else Int.ofNat e.natAbs) = e := by
      split_ifs with hneg
      · have hneg := of_decide_eq_true hneg
        rw [Int.negOfNat_eq, Int.ofNat_eq_natCast]
        omega
      · rw [decide_eq_true_iff] at hneg
        rw [Int.ofNat_eq_natCast]
        omega
    have hone : 0 < (digits m).length := List.length_pos_iff.mpr Nat.toDigits_ne_nil
    have hread := ofScientific_of_covers (e := e) hm hb hpos (by omega) (by omega) hc
    unfold Float.ofScientific
    rw [dif_neg hshort]
    dsimp only
    rw [hexponent]
    change Float.ofModel (.pack (UnpackedFloat.ofScientific Format.binary64 m e)) = _
    rw [hread]
    rfl

end Reading

/-! ## Doubles are read again -/

theorem unpack_ofParts (hb : b.Normal) (hpos : 0 < b.mantissa) (hle : b.exponent ≤ 971) (s : Sign) :
    (ofParts s b hpos).toModel.unpack = .finite s b.mantissa b.exponent hpos := by
  have hparts := ofFloat_ofParts hb hpos hle s
  generalize ofParts s b hpos = x at hparts
  have hexponent := Binary.exponent_ofFloat x
  have hunpack := unpack_eq x
  simp only [hparts, Binary.sign] at hexponent hunpack
  rw [hunpack, if_neg (by omega), dif_neg hpos.ne', UnpackedFloat.finite.injEq]
  cases s <;> exact ⟨rfl, rfl, rfl⟩

theorem neg_ofParts (hb : b.Normal) (hpos : 0 < b.mantissa) (hle : b.exponent ≤ 971) :
    -ofParts .positive b hpos = ofParts .negative b hpos := by
  change Float.ofModel (.pack (ofParts .positive b hpos).toModel.unpack.neg) = _
  rw [unpack_ofParts hb hpos hle]
  rfl

theorem exponent_le_of_isFinite {x : Float} (h : x.isFinite = true) :
    (Binary.ofFloat x).exponent ≤ 971 := by
  have hunpack := unpack_eq x
  have hexponent := Binary.exponent_ofFloat x
  change x.toModel.unpack.isFinite = true at h
  by_cases hfield : x.toBits.toNat / 2 ^ 52 % 2 ^ 11 = 2047
  · rw [if_pos hfield] at hunpack
    rw [hunpack] at h
    split at h <;> cases h
  · omega

/-- A decimal of the value of the shortest digits of a double is read as that double, with the sign
put in front of it. -/
theorem toFloat_of_value {x : Float} (hx : x.isFinite = true) {m : Nat} {e : Int}
    (h : (m : ℚ) * 10 ^ e = (shortest .even (.ofFloat x)).value) :
    (if (Binary.ofFloat x).negative then -toFloat m e else toFloat m e) = x := by
  have hb := Binary.normal_ofFloat x
  have hle := exponent_le_of_isFinite hx
  by_cases hzero : (Binary.ofFloat x).mantissa = 0
  · have hexponent := hb.exponent_of_zero hzero
    rw [value_shortest_zero hzero, mul_eq_zero, Nat.cast_eq_zero] at h
    obtain rfl : m = 0 := h.resolve_right (by positivity)
    rw [toFloat, if_pos rfl]
    apply Binary.ofFloat_injective
    cases hparts : Binary.ofFloat x with
    | mk negative mantissa exponent =>
      rw [hparts] at hzero hexponent
      obtain rfl : mantissa = 0 := hzero
      obtain rfl : exponent = -1074 := hexponent
      cases negative <;> decide
  · have hpos : 0 < (Binary.ofFloat x).mantissa := Nat.pos_of_ne_zero hzero
    have hm : m ≠ 0 := by
      rintro rfl
      rw [Nat.cast_zero, zero_mul] at h
      exact absurd h (value_shortest_pos hb hzero).ne
    have hcontains : (Shortest.interval (.ofFloat x)).contains m e = true := by
      have hcongr := Shortest.contains_congr (i := Shortest.interval (.ofFloat x))
        (s := ⟨m, e⟩) (t := shortest .even (.ofFloat x)) h
      exact hcongr.trans (Shortest.shortest_contains hb hzero)
    rw [toFloat_of_contains hm hb hpos hle hcontains, neg_ofParts hb hpos hle]
    apply Binary.ofFloat_injective
    rw [apply_ite Binary.ofFloat, ofFloat_ofParts hb hpos hle, ofFloat_ofParts hb hpos hle]
    cases hparts : Binary.ofFloat x with
    | mk negative mantissa exponent => cases negative <;> rfl

end Verdict.Decimal
