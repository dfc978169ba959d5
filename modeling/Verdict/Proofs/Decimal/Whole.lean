import Mathlib
import Verdict.Proofs.Decimal.Shortest

/-!
# Whole numbers as doubles

A double is unpacked into the parts that the exact view of its bits has.  A whole number of at most
53 bits fills a mantissa when it is shifted, rounding leaves it as it is, and so it is found again
in its double.  Rounding a number of at most 64 bits leaves a full mantissa, so its double is
finite.  No whole number of any size becomes NaN.
-/

namespace Verdict.Decimal

open Float.Model (UnpackedFloat Format totalExponent)
open Float.Model.UnpackedFloat

/-! ## Parts -/

def Binary.sign (b : Binary) : Sign :=
  if b.negative then .negative else .positive

theorem toNat_extractLsb (b : BitVec 64) (high low : Nat) :
    (b.extractLsb high low).toNat = b.toNat / 2 ^ low % 2 ^ (high - low + 1) := by
  rw [BitVec.extractLsb_toNat, Nat.shiftRight_eq_div_pow]

theorem toNat_unpackExponent (b : BitVec Format.binary64.numBits) :
    (unpackExponent b).toNat = b.toNat / 2 ^ 52 % 2 ^ 11 :=
  toNat_extractLsb b 62 52

theorem toNat_unpackMantissa (b : BitVec Format.binary64.numBits) :
    (unpackMantissa b).toNat = b.toNat % 2 ^ 52 :=
  (toNat_extractLsb b 51 0).trans (by rw [pow_zero, Nat.div_one])

theorem toNat_unpackSign (b : BitVec Format.binary64.numBits) :
    (unpackSign b).toNat = b.toNat / 2 ^ 63 % 2 :=
  toNat_extractLsb b 63 63

theorem toNat_leadingBit (f : BitVec 52) : (1#1 ++ f).toNat = 2 ^ 52 + f.toNat := by
  rw [BitVec.toNat_append, ← Nat.shiftLeft_add_eq_or_of_lt f.isLt, Nat.shiftLeft_eq]
  rfl

theorem ofBitVec_unpackSign (x : Float) :
    Sign.ofBitVec (@unpackSign Format.binary64 x.toBits.toBitVec) =
      (Binary.ofFloat x).sign := by
  have hbits : x.toBits.toNat < 2 ^ 64 := UInt64.toNat_lt _
  have hsign : @unpackSign Format.binary64 x.toBits.toBitVec = 0#1 ↔
      x.toBits.toNat / 2 ^ 63 % 2 = 0 := by
    rw [← BitVec.toNat_inj, toNat_unpackSign]
    rfl
  have hnegative : (Binary.ofFloat x).negative = true ↔ x.toBits.toNat / 2 ^ 63 = 1 :=
    beq_iff_eq
  simp only [Binary.sign, Sign.ofBitVec, hsign, hnegative]
  split_ifs
  · omega
  · rfl
  · rfl
  · omega

/-- Unpacking a double reads its parts; the highest exponent stands for infinities and NaN. -/
theorem unpack_eq (x : Float) :
    x.toModel.unpack =
      if x.toBits.toNat / 2 ^ 52 % 2 ^ 11 = 2047 then
        if x.toBits.toNat % 2 ^ 52 = 0 then .infinity (Binary.ofFloat x).sign else .notANumber
      else if h : (Binary.ofFloat x).mantissa = 0 then .zero (Binary.ofFloat x).sign
      else .finite (Binary.ofFloat x).sign (Binary.ofFloat x).mantissa (Binary.ofFloat x).exponent
        (Nat.pos_of_ne_zero h) := by
  have hexponent := toNat_unpackExponent x.toBits.toBitVec
  have hmantissa := toNat_unpackMantissa x.toBits.toBitVec
  have htop : @unpackExponent Format.binary64 x.toBits.toBitVec = -1#_ ↔
      x.toBits.toNat / 2 ^ 52 % 2 ^ 11 = 2047 := by
    rw [← BitVec.toNat_inj, hexponent]
    rfl
  have hleast : @unpackExponent Format.binary64 x.toBits.toBitVec = 0#_ ↔
      x.toBits.toNat / 2 ^ 52 % 2 ^ 11 = 0 := by
    rw [← BitVec.toNat_inj, hexponent]
    rfl
  have hnone : @unpackMantissa Format.binary64 x.toBits.toBitVec = 0#_ ↔
      x.toBits.toNat % 2 ^ 52 = 0 := by
    rw [← BitVec.toNat_inj, hmantissa]
    rfl
  have hm := Binary.mantissa_ofFloat x
  have he := Binary.exponent_ofFloat x
  change UnpackedFloat.unpack Format.binary64 x.toBits.toBitVec = _
  unfold UnpackedFloat.unpack
  dsimp only
  rw [ofBitVec_unpackSign]
  simp only [htop, hleast, hnone]
  split_ifs
  · rfl
  · rfl
  · rfl
  · omega
  · omega
  · rw [UnpackedFloat.finite.injEq, hmantissa, hexponent]
    change _ ∧ x.toBits.toNat % 2 ^ 52 = _ ∧
      ((x.toBits.toNat / 2 ^ 52 % 2 ^ 11 : Nat) : Int) - 1075 + 1 = _
    refine ⟨rfl, ?_, ?_⟩ <;> omega
  · omega
  · rw [UnpackedFloat.finite.injEq, toNat_leadingBit, hmantissa, hexponent]
    change _ ∧ 2 ^ 52 + x.toBits.toNat % 2 ^ 52 = _ ∧
      ((x.toBits.toNat / 2 ^ 52 % 2 ^ 11 : Nat) : Int) - 1075 = _
    refine ⟨rfl, ?_, ?_⟩ <;> omega

/-! ## Doubles with a full mantissa -/

/-- A mantissa of 53 bits, and an exponent for it. -/
structure Full (m : Nat) (e : Int) : Prop where
  low : 2 ^ 52 ≤ m
  lt : m < 2 ^ 53
  least : -1074 ≤ e
  le : e ≤ 971

variable {m : Nat} {e : Int}

theorem Full.pos (h : Full m e) : 0 < m :=
  lt_of_lt_of_le (by decide) h.low

def Full.toFloat (h : Full m e) (s : Sign) : Float :=
  .ofModel (.pack (.finite s m e h.pos))

theorem toNat_packComponents (s : Sign) (field : BitVec 11) (f : BitVec 52) :
    (packComponents Format.binary64 s field f).toNat =
      s.toBitVec.toNat * 2 ^ 63 + field.toNat * 2 ^ 52 + f.toNat := by
  change (s.toBitVec ++ field ++ f).toNat = _
  rw [BitVec.toNat_append, ← Nat.shiftLeft_add_eq_or_of_lt f.isLt, BitVec.toNat_append,
    ← Nat.shiftLeft_add_eq_or_of_lt field.isLt, Nat.shiftLeft_eq, Nat.shiftLeft_eq]
  omega

namespace Full

theorem toBits_toFloat (h : Full m e) (s : Sign) :
    (h.toFloat s).toBits.toNat =
      s.toBitVec.toNat * 2 ^ 63 + (e + 1075).toNat * 2 ^ 52 + (m - 2 ^ 52) := by
  obtain ⟨hlow, hlt, hleast, hle⟩ := h
  have hlog : m.log2 + 1 = Format.binary64.mantissaBits := by
    rw [(Nat.log2_eq_iff (by omega)).mpr ⟨hlow, hlt⟩]
    rfl
  have hfits : ¬2 ^ 11 ≤ (e + Format.binary64.exponentBias + (52 : Nat)).toNat + 1 := by
    change ¬2 ^ 11 ≤ (e + 1023 + 52).toNat + 1
    omega
  change (UnpackedFloat.pack Format.binary64 _).toNat = _
  unfold UnpackedFloat.pack
  dsimp only
  rw [if_neg hfits, if_pos hlog, toNat_packComponents, BitVec.toNat_ofNat, BitVec.toNat_ofNat]
  change _ + (e + 1023 + 52).toNat % 2 ^ 11 * 2 ^ 52 + m % 2 ^ 52 = _
  rw [Nat.mod_eq_of_lt (show (e + 1023 + 52).toNat < 2 ^ 11 by omega)]
  omega

theorem ofFloat_toFloat (h : Full m e) (s : Sign) :
    Binary.ofFloat (h.toFloat s) = ⟨s == .negative, m, e⟩ := by
  have hbits := h.toBits_toFloat s
  generalize h.toFloat s = x at hbits
  have hs : s.toBitVec.toNat < 2 := s.toBitVec.isLt
  have hmantissa := Binary.mantissa_ofFloat x
  have hexponent := Binary.exponent_ofFloat x
  have hnegative : (Binary.ofFloat x).negative = (s == .negative) := by
    change (x.toBits.toNat / 2 ^ 63 == 1) = _
    rw [show x.toBits.toNat / 2 ^ 63 = s.toBitVec.toNat by have := h.lt; have := h.le; omega]
    cases s <;> rfl
  obtain ⟨hlow, hlt, hleast, hle⟩ := h
  rw [← hnegative, show m = (Binary.ofFloat x).mantissa by omega,
    show e = (Binary.ofFloat x).exponent by omega]

theorem unpack_toFloat (h : Full m e) (s : Sign) :
    (h.toFloat s).toModel.unpack = .finite s m e h.pos := by
  have hbits := h.toBits_toFloat s
  have hparts := h.ofFloat_toFloat s
  have hs : s.toBitVec.toNat < 2 := s.toBitVec.isLt
  have hmantissa : (Binary.ofFloat (h.toFloat s)).mantissa = m := by rw [hparts]
  obtain ⟨hlow, hlt, hleast, hle⟩ := h
  rw [unpack_eq, if_neg (by omega), dif_neg (by omega), UnpackedFloat.finite.injEq, hparts]
  refine ⟨?_, rfl, rfl⟩
  cases s <;> rfl

theorem isFinite_toFloat (h : Full m e) (s : Sign) : (h.toFloat s).isFinite = true := by
  change (h.toFloat s).toModel.unpack.isFinite = true
  rw [h.unpack_toFloat]
  rfl

/-! Rounding leaves such a number as it is, however its mantissa is written. -/

theorem shiftRight_eq (m k : Nat) :
    ExtendedMantissa.mk (m * 2 ^ k) false false >>> k = .mk m false false := by
  induction k generalizing m with
  | zero => simp [HShiftRight.hShiftRight, Nat.repeat]
  | succ k ih =>
    change (ExtendedMantissa.mk (m * 2 ^ (k + 1)) false false >>> k).shiftRightOne = _
    rw [Nat.pow_succ, mul_comm _ 2, ← mul_assoc, ih]
    simp [ExtendedMantissa.shiftRightOne]

theorem log2_mul (h : Full m e) (k : Nat) : (m * 2 ^ k).log2 = 52 + k := by
  have hpow : 0 < 2 ^ k := by positivity
  rw [Nat.log2_eq_iff (Nat.mul_pos h.pos hpow).ne', pow_add, add_right_comm, pow_add]
  exact ⟨Nat.mul_le_mul_right _ h.low, Nat.mul_lt_mul_of_pos_right h.lt hpow⟩

theorem shiftToTargetExponent_eq (h : Full m e) (k : Nat) :
    shiftToTargetExponent Format.binary64 (m * 2 ^ k) (e - k) .exact =
      (.mk m false false, e) := by
  have hleast := h.least
  have htarget : Format.binary64.targetExponent (totalExponent (m * 2 ^ k) (e - k)) = e := by
    change max (((m * 2 ^ k).log2 : Int) + 1 + (e - k) - 53) (-1074) = e
    rw [h.log2_mul k]
    omega
  unfold shiftToTargetExponent shiftToExponent
  dsimp only
  rw [htarget, show (e - (e - k)).toNat = k by omega, Prod.mk.injEq]
  exact ⟨shiftRight_eq m k, by omega⟩

theorem roundWithAccuracy_eq (h : Full m e) (s : Sign) (k : Nat) :
    roundWithAccuracy Format.binary64 s (m * 2 ^ k) (e - k) .exact = .finite s m e h.pos := by
  have hagain := h.shiftToTargetExponent_eq 0
  rw [pow_zero, mul_one, Nat.cast_zero, sub_zero] at hagain
  have hround : (ExtendedMantissa.mk m false false).roundedMantissa = m := rfl
  unfold roundWithAccuracy
  rw [h.shiftToTargetExponent_eq k]
  simp only [hround, hagain]
  exact dif_neg h.pos.ne'

end Full

/-! ## Whole numbers -/

/-- How far a number of at most 53 bits is shifted to fill a mantissa. -/
def room (n : Nat) : Nat :=
  52 - n.log2

theorem full_of_lt {n : Nat} (hpos : 0 < n) (hlt : n < 2 ^ 53) :
    Full (n * 2 ^ room n) (-(room n : Int)) := by
  have hlog : n.log2 < 53 := (Nat.log2_lt hpos.ne').mpr hlt
  have hbounds := (Nat.log2_eq_iff hpos.ne').mp rfl
  have hroom : n.log2 + room n = 52 := by
    unfold room
    omega
  have hpow : 2 ^ n.log2 * 2 ^ room n = 2 ^ 52 := by rw [← pow_add, hroom]
  have hpow' : 2 ^ (n.log2 + 1) * 2 ^ room n = 2 ^ 53 := by
    rw [← pow_add, add_right_comm, hroom]
  refine ⟨?_, ?_, by unfold room; omega, by omega⟩
  · rw [← hpow]
    exact Nat.mul_le_mul_right _ hbounds.1
  · rw [← hpow']
    exact Nat.mul_lt_mul_of_pos_right hbounds.2 (by positivity)

theorem round_natCast {n : Nat} (hpos : 0 < n) (hlt : n < 2 ^ 53) (s : Sign) :
    UnpackedFloat.round Format.binary64 s n 0 =
      .finite s (n * 2 ^ room n) (-(room n : Int)) (full_of_lt hpos hlt).pos := by
  have hfull := full_of_lt hpos hlt
  have hlog : n.log2 < 53 := (Nat.log2_lt hpos.ne').mpr hlt
  have htarget : Format.binary64.targetExponent (totalExponent n 0) = -(room n : Int) := by
    change max ((n.log2 : Int) + 1 + 0 - 53) (-1074) = _
    unfold room
    omega
  have hround := hfull.roundWithAccuracy_eq s 0
  rw [pow_zero, mul_one, Nat.cast_zero, sub_zero] at hround
  unfold UnpackedFloat.round decreaseExponent
  dsimp only
  rw [htarget, show (0 - -(room n : Int)).toNat = room n by omega, Nat.shiftLeft_eq, zero_sub]
  exact hround

theorem toFloat_toUInt64 {n : Nat} (hpos : 0 < n) (hlt : n < 2 ^ 53) :
    n.toUInt64.toFloat = (full_of_lt hpos hlt).toFloat .positive := by
  have hword : n.toUInt64.toNat = n := Nat.mod_eq_of_lt (by omega)
  have hsign : compare (n : Int) 0 = .gt := compare_gt_iff_gt.mpr (by omega)
  change Float.ofModel (.pack
    (UnpackedFloat.normalize Format.binary64 (n.toUInt64.toNat : Int) 0 .positive)) = _
  unfold UnpackedFloat.normalize
  rw [hword, hsign]
  dsimp only
  rw [Int.toNat_natCast, round_natCast hpos hlt]
  rfl

/-- A positive number of at most 53 bits is a double. -/
theorem ofNat_eq {n : Nat} (hpos : 0 < n) (hlt : n < 2 ^ 53) :
    Float.ofNat n = (full_of_lt hpos hlt).toFloat .positive := by
  have hfull := full_of_lt hpos hlt
  -- the number is multiplied by the zeroth power of ten
  have hone : (Float.ofBits 0x3FF0000000000000).toModel.unpack =
      .finite .positive (2 ^ 52) (-52) (by decide) := by
    rfl
  have hproduct : UnpackedFloat.mul Format.binary64
      ((full_of_lt hpos hlt).toFloat .positive).toModel.unpack
      (Float.ofBits 0x3FF0000000000000).toModel.unpack =
        .finite .positive (n * 2 ^ room n) (-(room n : Int)) hfull.pos := by
    rw [hone, hfull.unpack_toFloat]
    exact hfull.roundWithAccuracy_eq .positive 52
  change Float.ofScientific n false 0 = _
  unfold Float.ofScientific
  rw [dif_pos ⟨hlt, by decide⟩, toFloat_toUInt64 hpos hlt]
  change Float.ofModel (.pack (UnpackedFloat.mul Format.binary64
    ((full_of_lt hpos hlt).toFloat .positive).toModel.unpack
    (Float.ofBits 0x3FF0000000000000).toModel.unpack)) = _
  rw [hproduct]
  rfl

theorem Full.neg_toFloat (h : Full m e) (s : Sign) : -h.toFloat s = h.toFloat (-s) := by
  change Float.ofModel (.pack (h.toFloat s).toModel.unpack.neg) = _
  rw [h.unpack_toFloat]
  rfl

/-- A number other than zero of at most 53 bits is a double. -/
theorem ofInt_eq {n : Int} (hne : n ≠ 0) (hlt : n.natAbs < 2 ^ 53) :
    Float.ofInt n = (full_of_lt (Int.natAbs_pos.mpr hne) hlt).toFloat
      (if n < 0 then .negative else .positive) := by
  cases n with
  | ofNat n =>
    rw [if_neg (show ¬Int.ofNat n < 0 by simp)]
    exact ofNat_eq (Int.natAbs_pos.mpr hne) hlt
  | negSucc n =>
    rw [if_pos (Int.negSucc_lt_zero n)]
    change -Float.ofNat (n + 1) = _
    rw [ofNat_eq n.succ_pos hlt]
    exact Full.neg_toFloat _ _

theorem exists_ratio (negative : Bool) (n k : Nat) :
    ∃ d, 0 < d ∧ (Binary.mk negative (n * 2 ^ k) (-(k : Int))).ratio = (n * d, d) := by
  cases k with
  | zero => exact ⟨1, one_pos, congrArg (·, 1) (Nat.mul_one _)⟩
  | succ k => exact ⟨2 ^ (k + 1), by positivity, rfl⟩

theorem truncate_of_ratio {b : Binary} {n d : Nat} (hd : 0 < d) (h : b.ratio = (n * d, d)) :
    b.truncate = if b.negative then -(n : Int) else n := by
  change (if b.negative then -((b.ratio.1 / b.ratio.2 : Nat) : Int) else
    (b.ratio.1 / b.ratio.2 : Nat)) = _
  rw [h, Nat.mul_div_cancel _ hd]

/-- A whole number of at most 53 bits is found again in its double. -/
theorem whole_ofInt {n : Int} (hlt : n.natAbs < 2 ^ 53) :
    (Float.ofInt n).isFinite = true ∧ (Binary.ofFloat (Float.ofInt n)).isWhole = true ∧
      (Binary.ofFloat (Float.ofInt n)).truncate = n := by
  by_cases hne : n = 0
  · subst hne
    decide +kernel
  · have hfull := full_of_lt (Int.natAbs_pos.mpr hne) hlt
    rw [ofInt_eq hne hlt, hfull.ofFloat_toFloat]
    generalize hs : (if n < 0 then Sign.negative else Sign.positive) = s
    obtain ⟨d, hd, hratio⟩ := exists_ratio (s == .negative) n.natAbs (room n.natAbs)
    refine ⟨hfull.isFinite_toFloat s, ?_, ?_⟩
    · rw [Binary.isWhole, hratio, Nat.mul_mod_left]
      rfl
    · rw [truncate_of_ratio hd hratio, ← hs]
      by_cases hsign : n < 0
      · rw [if_pos hsign, if_pos (show (Sign.negative == Sign.negative) = true from rfl)]
        omega
      · rw [if_neg hsign, if_neg (show ¬(Sign.positive == Sign.negative) = true from nofun)]
        omega

/-! ## Numbers of 64 bits -/

theorem mantissa_shiftRight (x : ExtendedMantissa) (k : Nat) :
    (x >>> k).mantissa = x.mantissa / 2 ^ k := by
  induction k with
  | zero => exact (Nat.div_one x.mantissa).symm
  | succ k ih =>
    change (x >>> k).mantissa / 2 = _
    rw [ih, Nat.div_div_eq_div_mul, Nat.pow_succ]

theorem roundedMantissa_bounds (x : ExtendedMantissa) :
    x.mantissa ≤ x.roundedMantissa ∧ x.roundedMantissa ≤ x.mantissa + 1 := by
  obtain ⟨m, roundBit, stickyBit⟩ := x
  cases roundBit <;> cases stickyBit
  · exact ⟨le_refl m, Nat.le_succ m⟩
  · exact ⟨le_refl m, Nat.le_succ m⟩
  · change m ≤ m + m % 2 ∧ m + m % 2 ≤ m + 1
    omega
  · exact ⟨Nat.le_succ m, le_refl _⟩

theorem exists_full_roundWithAccuracy (s : Sign) {n k : Nat} {e : Int} (hlog : n.log2 = 52 + k)
    (hleast : -1074 ≤ e + k) (hle : e + k < 971) :
    ∃ m f, ∃ h : Full m f,
      roundWithAccuracy Format.binary64 s n e .exact = .finite s m f h.pos := by
  have hne : n ≠ 0 := by
    rintro rfl
    rw [Nat.log2_zero] at hlog
    omega
  have htarget : Format.binary64.targetExponent (totalExponent n e) = e + k := by
    change max ((n.log2 : Int) + 1 + e - 53) (-1074) = e + k
    rw [hlog]
    omega
  have hshift : shiftToTargetExponent Format.binary64 n e .exact =
      (ExtendedMantissa.mk n false false >>> k, e + k) := by
    unfold shiftToTargetExponent shiftToExponent
    dsimp only
    rw [htarget, show (e + k - e).toNat = k by omega]
    rfl
  obtain ⟨hlow, hhigh⟩ := roundedMantissa_bounds (ExtendedMantissa.mk n false false >>> k)
  rw [mantissa_shiftRight] at hlow hhigh
  dsimp only at hlow hhigh
  generalize hr : (ExtendedMantissa.mk n false false >>> k).roundedMantissa = r at hlow hhigh
  have hbounds := (Nat.log2_eq_iff hne).mp hlog
  have hquotient : 2 ^ 52 ≤ n / 2 ^ k ∧ n / 2 ^ k < 2 ^ 53 := by
    rw [Nat.le_div_iff_mul_le (by positivity), Nat.div_lt_iff_lt_mul (by positivity), ← pow_add,
      ← pow_add, show 53 + k = 52 + k + 1 by omega]
    exact hbounds
  unfold roundWithAccuracy
  rw [hshift]
  simp only [hr]
  rcases Nat.lt_or_eq_of_le (show r ≤ 2 ^ 52 * 2 ^ 1 by omega) with hlt | htop
  · have hfull : Full r (e + k) := ⟨by omega, by omega, hleast, by omega⟩
    have hagain := hfull.shiftToTargetExponent_eq 0
    rw [pow_zero, mul_one, Nat.cast_zero, sub_zero] at hagain
    refine ⟨r, e + k, hfull, ?_⟩
    simp only [hagain]
    exact dif_neg hfull.pos.ne'
  · have hfull : Full (2 ^ 52) (e + k + 1) := ⟨le_refl _, by decide, by omega, by omega⟩
    have hagain := hfull.shiftToTargetExponent_eq 1
    rw [Nat.cast_one, add_sub_cancel_right] at hagain
    refine ⟨2 ^ 52, e + k + 1, hfull, ?_⟩
    simp only [htop, hagain]
    exact dif_neg hfull.pos.ne'

theorem log2_mul_two_pow {n : Nat} (hn : n ≠ 0) (k : Nat) : (n * 2 ^ k).log2 = n.log2 + k := by
  induction k with
  | zero => rw [pow_zero, mul_one, add_zero]
  | succ k ih =>
    rw [pow_succ, ← mul_assoc, mul_comm, Nat.log2_two_mul (Nat.mul_ne_zero hn (by positivity)), ih,
      add_assoc]

theorem ofScientific_zero {n : Nat} (hpos : 0 < n) :
    UnpackedFloat.ofScientific Format.binary64 n 0 =
      roundWithAccuracy Format.binary64 .positive (n * 2 ^ 53) (-53) .exact := by
  have hsmall : ¬(0 : Int) > 2 ^ Format.binary64.exponentBits := by decide
  have hlarge : ¬(0 : Int) < -((2 ^ Format.binary64.exponentBits : Int) + n.log2) := by
    change ¬(0 : Int) < -((2 ^ 11 : Int) + n.log2)
    omega
  have hbits : Format.binary64.mantissaBits = 53 := rfl
  have hsign : (Sign.positive * Sign.positive) = Sign.positive := rfl
  unfold UnpackedFloat.ofScientific
  rw [dif_neg hpos.ne', if_neg hsmall, if_neg hlarge, if_pos le_rfl]
  simp only [UnpackedFloat.mul, Int.toNat_zero, pow_zero, mul_one, Nat.shiftLeft_eq, hbits, hsign,
    add_zero, Nat.cast_ofNat]

/-- A positive number of at most 64 bits is rounded to a double with a full mantissa. -/
theorem exists_full_ofNat {n : Nat} (hpos : 0 < n) (hlt : n < 2 ^ 64) :
    ∃ m e, ∃ h : Full m e, Float.ofNat n = h.toFloat .positive := by
  by_cases hsmall : n < 2 ^ 53
  · exact ⟨_, _, full_of_lt hpos hsmall, ofNat_eq hpos hsmall⟩
  · have hlow : 53 ≤ n.log2 := (Nat.le_log2 hpos.ne').mpr (not_lt.mp hsmall)
    have hhigh : n.log2 < 64 := (Nat.log2_lt hpos.ne').mpr hlt
    have hlog : (n * 2 ^ 53).log2 = 52 + (n.log2 + 1) := by
      rw [log2_mul_two_pow hpos.ne']
      omega
    obtain ⟨m, e, hfull, hround⟩ :=
      exists_full_roundWithAccuracy (s := .positive) (e := -53) hlog (by omega) (by omega)
    refine ⟨m, e, hfull, ?_⟩
    change Float.ofScientific n false 0 = _
    unfold Float.ofScientific
    rw [dif_neg fun h => hsmall h.1]
    change Float.ofModel (.pack (UnpackedFloat.ofScientific Format.binary64 n 0)) = _
    rw [ofScientific_zero hpos, hround]
    rfl

/-- An integer other than zero of at most 64 bits and a sign is rounded to such a double. -/
theorem exists_full_ofInt {n : Int} (hne : n ≠ 0) (hlt : n.natAbs < 2 ^ 64) :
    ∃ m e, ∃ h : Full m e,
      Float.ofInt n = h.toFloat (if n < 0 then .negative else .positive) := by
  cases n with
  | ofNat n =>
    rw [if_neg (show ¬Int.ofNat n < 0 by simp)]
    exact exists_full_ofNat (Int.natAbs_pos.mpr hne) hlt
  | negSucc n =>
    obtain ⟨m, e, hfull, hn⟩ := exists_full_ofNat n.succ_pos hlt
    refine ⟨m, e, hfull, ?_⟩
    rw [if_pos (Int.negSucc_lt_zero n)]
    change -Float.ofNat (n + 1) = _
    rw [hn]
    exact Full.neg_toFloat _ _

theorem isFinite_ofInt {n : Int} (hlt : n.natAbs < 2 ^ 64) : (Float.ofInt n).isFinite = true := by
  by_cases hne : n = 0
  · subst hne
    decide
  · obtain ⟨m, e, hfull, hn⟩ := exists_full_ofInt hne hlt
    rw [hn]
    exact hfull.isFinite_toFloat _

/-! ## Whole numbers are no NaN -/

theorem isNaN_unpack_iff (spec : Format) (b : BitVec spec.numBits) :
    (UnpackedFloat.unpack spec b).isNaN = true ↔
      unpackExponent b = -1#_ ∧ unpackMantissa b ≠ 0#_ := by
  unfold UnpackedFloat.unpack
  dsimp only
  split_ifs <;> simp_all [UnpackedFloat.isNaN]

theorem isNaN_pack {u : UnpackedFloat} (h : u.isNaN = false) :
    (Float.ofModel (.pack u)).isNaN = false := by
  change (UnpackedFloat.unpack Format.binary64 (UnpackedFloat.pack Format.binary64 u)).isNaN = false
  rw [← Bool.not_eq_true, isNaN_unpack_iff]
  rintro ⟨hexponent, hmantissa⟩
  cases u with
  | notANumber => cases h
  | infinity s => exact hmantissa unpackMantissa_packComponents
  | zero s => exact hmantissa unpackMantissa_packComponents
  | finite s m e hm =>
    unfold UnpackedFloat.pack at hexponent hmantissa
    dsimp only at hexponent hmantissa
    split_ifs at hexponent hmantissa with hlarge hnormal
    · exact hmantissa unpackMantissa_packComponents
    · rw [unpackExponent_packComponents] at hexponent
      have hfield := congrArg BitVec.toNat hexponent
      rw [BitVec.toNat_ofNat] at hfield
      change _ % 2 ^ 11 = 2047 at hfield
      change ¬2 ^ 11 ≤ _ at hlarge
      omega
    · rw [unpackExponent_packComponents] at hexponent
      exact absurd hexponent (by decide)

theorem isNaN_roundWithAccuracy (spec : Format) (s : Sign) (m : Nat) (e : Int) (a : Accuracy) :
    (roundWithAccuracy spec s m e a).isNaN = false := by
  unfold roundWithAccuracy
  dsimp only
  split_ifs <;> rfl

theorem isNaN_mul_finite (spec : Format) {s t : Sign} {m n : Nat} {e f : Int} (hm : 0 < m)
    (hn : 0 < n) : (UnpackedFloat.mul spec (.finite s m e hm) (.finite t n f hn)).isNaN = false :=
  isNaN_roundWithAccuracy spec (s * t) (m * n) (e + f) .exact

theorem isNaN_ofScientific (spec : Format) (n : Nat) :
    (UnpackedFloat.ofScientific spec n 0).isNaN = false := by
  unfold UnpackedFloat.ofScientific
  split_ifs with _ _ _ hsign
  · rfl
  · rfl
  · rfl
  · exact isNaN_mul_finite _ _ _
  · exact absurd (le_refl 0) hsign

theorem isNaN_ofNat (n : Nat) : (Float.ofNat n).isNaN = false := by
  by_cases hlt : n < 2 ^ 53
  · rcases Nat.eq_zero_or_pos n with rfl | hpos
    · decide
    · rw [ofNat_eq hpos hlt]
      exact isNaN_pack rfl
  · change (Float.ofScientific n false 0).isNaN = false
    unfold Float.ofScientific
    rw [dif_neg fun h => hlt h.1]
    exact isNaN_pack (isNaN_ofScientific _ n)

theorem isNaN_ofInt (n : Int) : (Float.ofInt n).isNaN = false := by
  cases n with
  | ofNat n => exact isNaN_ofNat n
  | negSucc n =>
    have h := isNaN_ofNat (n + 1)
    change (Float.ofModel (.pack (Float.ofNat (n + 1)).toModel.unpack.neg)).isNaN = false
    change (Float.ofNat (n + 1)).toModel.unpack.isNaN = false at h
    refine isNaN_pack ?_
    generalize (Float.ofNat (n + 1)).toModel.unpack = u at h
    cases u with
    | notANumber => exact h
    | infinity s => rfl
    | zero s => rfl
    | finite s m e hm => rfl

end Verdict.Decimal
