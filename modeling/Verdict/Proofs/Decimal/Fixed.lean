import Verdict.Decimal.Fixed
import Verdict.Proofs.Decimal.Plain

/-!
# Rounding to places

The digits of a double with a fixed number of places are those of the whole number nearest to its
size in units of the last place; of two that are as near, the even one.
-/

namespace Verdict.Decimal

/-- The whole number nearest to a number; of two that are as near, the even one. -/
structure IsNearest (q : ℚ) (n : Nat) : Prop where
  near : |q - n| ≤ 1 / 2
  even : |q - n| = 1 / 2 → Even n

theorem isNearest_roundHalfEven (num : Nat) {den : Nat} (hden : 0 < den) :
    IsNearest (num / den) (roundHalfEven num den) := by
  have hden' : (0 : ℚ) < den := Nat.cast_pos.mpr hden
  have hlt : num % den < den := Nat.mod_lt num hden
  have hsplit : (num : ℚ) / den = (num / den : Nat) + (num % den : Nat) / den := by
    rw [div_eq_iff hden'.ne', add_mul, div_mul_cancel₀ _ hden'.ne', mul_comm]
    exact_mod_cast (Nat.div_add_mod num den).symm
  rw [hsplit]
  unfold roundHalfEven
  dsimp only
  generalize num / den = q
  generalize num % den = r at hlt ⊢
  have hr : (0 : ℚ) ≤ r / den := by positivity
  have hdown : |(q : ℚ) + r / den - q| = r / den := by
    rw [add_sub_cancel_left, abs_of_nonneg hr]
  have hup : |(q : ℚ) + r / den - (q + 1 : Nat)| = 1 - r / den := by
    have hle : (r : ℚ) / den ≤ 1 := (div_le_one hden').mpr (Nat.cast_le.mpr hlt.le)
    rw [abs_sub_comm, Nat.cast_add, Nat.cast_one, add_sub_add_left_eq_sub,
      abs_of_nonneg (sub_nonneg.mpr hle)]
  rcases lt_trichotomy (2 * r) den with hbelow | hmid | habove
  · rw [if_pos hbelow]
    have hhalf : (r : ℚ) / den < 1 / 2 := by
      rw [div_lt_div_iff₀ hden' two_pos, one_mul, mul_comm]
      exact_mod_cast hbelow
    exact ⟨hdown.trans_le hhalf.le, fun h => absurd (hdown.symm.trans h) hhalf.ne⟩
  · rw [if_neg (by omega), if_neg (by omega)]
    have hhalf : (r : ℚ) / den = 1 / 2 := by
      rw [div_eq_div_iff hden'.ne' two_ne_zero, one_mul, mul_comm]
      exact_mod_cast hmid
    split_ifs with hq
    · exact ⟨(hdown.trans hhalf).le, fun _ => Nat.even_iff.mpr hq⟩
    · exact ⟨by rw [hup, hhalf]; norm_num, fun _ => Nat.even_iff.mpr (by omega)⟩
  · rw [if_neg (by omega), if_pos habove]
    have hhalf : 1 / 2 < (r : ℚ) / den := by
      rw [div_lt_div_iff₀ two_pos hden', one_mul, mul_comm]
      exact_mod_cast habove
    exact ⟨by rw [hup]; linarith, fun h => absurd (hup.symm.trans h) (by linarith)⟩

def unitsAt (b : Binary) (places : Nat) : Nat :=
  roundHalfEven (b.ratio.1 * 10 ^ places) b.ratio.2

theorem isNearest_unitsAt (b : Binary) (places : Nat) :
    IsNearest (b.mantissa * 2 ^ b.exponent * 10 ^ places) (unitsAt b places) := by
  have h := isNearest_roundHalfEven (b.ratio.1 * 10 ^ places) (ratio_pos b)
  rw [Nat.cast_mul, mul_div_right_comm, ratio_eq, Nat.cast_pow, Nat.cast_ofNat] at h
  exact h

theorem fixed_eq (b : Binary) (places : Nat) :
    fixed b places = (digits (unitsAt b places / 10 ^ places),
      if places = 0 then [] else padded places (unitsAt b places % 10 ^ places)) :=
  rfl

end Verdict.Decimal
