import Verdict.Proofs.Decimal.Scale

/-!
# Shortest digits tell doubles apart

The shortest digits of a double lie in the interval of numbers that round to it: seventeen digits
always reach that interval.  The intervals of different doubles have no number in common, since a
shared end belongs to the double with the even mantissa only.
-/

namespace Verdict.Decimal

/-- The mantissa and the exponent of a finite double. -/
structure Binary.Normal (b : Binary) : Prop where
  lt : b.mantissa < 2 ^ 53
  least : -1074 ≤ b.exponent
  le : b.exponent ≤ 972
  leading : -1074 < b.exponent → 2 ^ 52 ≤ b.mantissa

/-- The exponent field of a double tells whether its leading bit is written. -/
theorem Binary.mantissa_ofFloat (x : Float) :
    x.toBits.toNat / 2 ^ 52 % 2 ^ 11 = 0 ∧ (ofFloat x).mantissa = x.toBits.toNat % 2 ^ 52
      ∨ x.toBits.toNat / 2 ^ 52 % 2 ^ 11 ≠ 0
        ∧ (ofFloat x).mantissa = 2 ^ 52 + x.toBits.toNat % 2 ^ 52 := by
  by_cases h : x.toBits.toNat / twoTo 52 % twoTo 11 = 0
  · exact .inl ⟨h, if_pos h⟩
  · exact .inr ⟨h, if_neg h⟩

theorem Binary.exponent_ofFloat (x : Float) :
    (ofFloat x).exponent = (max (x.toBits.toNat / 2 ^ 52 % 2 ^ 11) 1 : Nat) - 1075 :=
  rfl

theorem Binary.normal_ofFloat (x : Float) : (ofFloat x).Normal := by
  have hmantissa := mantissa_ofFloat x
  have hexponent := exponent_ofFloat x
  constructor <;> omega

theorem Binary.ofFloat_injective {x y : Float} (h : ofFloat x = ofFloat y) : x = y := by
  have hx : x.toBits.toNat < 2 ^ 64 := UInt64.toNat_lt _
  have hy : y.toBits.toNat < 2 ^ 64 := UInt64.toNat_lt _
  have hsign : x.toBits.toNat / 2 ^ 63 = 1 ↔ y.toBits.toNat / 2 ^ 63 = 1 := by
    have hnegative : (x.toBits.toNat / 2 ^ 63 == 1) = (y.toBits.toNat / 2 ^ 63 == 1) :=
      congrArg Binary.negative h
    rwa [beq_eq_beq] at hnegative
  have hbits : x.toBits.toNat = y.toBits.toNat := by
    have hx' := mantissa_ofFloat x
    have hy' := mantissa_ofFloat y
    have hexponent := exponent_ofFloat x
    rw [h] at hx' hexponent
    rw [exponent_ofFloat y] at hexponent
    omega
  obtain ⟨⟨bits, valid⟩⟩ := x
  obtain ⟨⟨bits', valid'⟩⟩ := y
  cases UInt64.toNat_inj.mp hbits
  rfl

namespace Shortest

variable {b c : Binary} {tie : Tie} {i : Interval}

/-! ## Intervals -/

/-- A quarter of the distance to the neighbour below a double, in units of two. -/
theorem low_interval (b : Binary) :
    (interval b).low = 4 * b.mantissa - 1 ∧ b.mantissa = 2 ^ 52 ∧ -1074 < b.exponent
      ∨ (interval b).low = 4 * b.mantissa - 2
        ∧ (b.mantissa = 2 ^ 52 → b.exponent ≤ -1074) := by
  by_cases h : b.mantissa = twoTo 52 ∧ b.exponent > -1074
  · exact .inl ⟨congrArg (4 * b.mantissa - ·) (if_pos h), h.1, h.2⟩
  · exact .inr ⟨congrArg (4 * b.mantissa - ·) (if_neg h), fun hm => not_lt.mp fun he => h ⟨hm, he⟩⟩

theorem high_interval (b : Binary) : (interval b).high = 4 * b.mantissa + 2 := rfl

theorem low_le_high (b : Binary) : (interval b).low ≤ (interval b).high := by
  rcases low_interval b with ⟨h, -⟩ | ⟨h, -⟩ <;> rw [h, high_interval] <;> omega

theorem closed_interval (b : Binary) : (interval b).closed = (b.mantissa % 2 == 0) := rfl

/-- The ends of an interval in units of the last place. -/
theorem two_zpow_sub_two (e : ℤ) : (2 : ℚ) ^ (e - 2) = 2 ^ e / 4 := by
  rw [zpow_sub₀ two_ne_zero]
  norm_num

/-! ## Grids that reach an interval -/

theorem onGrid_contains {e : ℤ} {s : Scaled} (h : onGrid tie i e = some s) :
    i.contains s.coefficient s.exponent = true := by
  dsimp only [onGrid] at h
  split at h
  · rename_i hlow hhigh
    rw [Bool.and_eq_true] at hlow
    cases h
    dsimp only
    split
    · exact hlow.1
    · exact hhigh
  · rename_i hlow _
    rw [Bool.and_eq_true] at hlow
    cases h
    exact hlow.1
  · rename_i hhigh
    cases h
    exact hhigh
  · cases h

theorem onGrid_isSome {e : ℤ} (hlow : i.low < i.value) (hhigh : i.value < i.high)
    (hfine : (10 : ℚ) ^ e < (i.high - i.low) * 2 ^ i.exponent) : (onGrid tie i e).isSome := by
  have hpow : (0 : ℚ) < 2 ^ i.exponent := by positivity
  have hl : (i.low : ℚ) * 2 ^ i.exponent < i.value * 2 ^ i.exponent :=
    mul_lt_mul_of_pos_right (Nat.cast_lt.mpr hlow) hpow
  have hh : (i.value : ℚ) * 2 ^ i.exponent < i.high * 2 ^ i.exponent :=
    mul_lt_mul_of_pos_right (Nat.cast_lt.mpr hhigh) hpow
  have hfloor := floorOn_le i.value i.exponent e
  have hnext := lt_floorOn_succ i.value i.exponent e
  rw [onGrid]
  set s := floorOn i.value i.exponent e
  by_cases hs : (i.low : ℚ) * 2 ^ i.exponent < s * 10 ^ e
  · have hcontains : i.contains s e = true := contains_of_between hs (hfloor.trans_lt hh)
    have hzero : s ≠ 0 := by
      intro hzero
      rw [hzero, Nat.cast_zero, zero_mul] at hs
      exact absurd hs (not_lt.mpr (by positivity))
    have hne : (s != 0) = true := bne_iff_ne.mpr hzero
    rw [hcontains, hne]
    cases i.contains (s + 1) e <;> rfl
  · have hcontains : i.contains (s + 1) e = true := by
      refine contains_of_between (hl.trans hnext) ?_
      rw [Nat.cast_add, Nat.cast_one, add_mul, one_mul]
      rw [sub_mul] at hfine
      linarith
    rw [hcontains]
    cases i.contains s e && s != 0 <;> rfl

theorem search_contains {top : ℤ} {fuel count : Nat}
    (h : ∃ k, count ≤ k ∧ k < count + fuel ∧ (onGrid tie i (top - k)).isSome) :
    i.contains (search tie i top fuel count).coefficient (search tie i top fuel count).exponent
      = true := by
  induction fuel generalizing count with
  | zero =>
    obtain ⟨k, hle, hlt, -⟩ := h
    omega
  | succ fuel ih =>
    rw [search]
    split
    · rename_i s hs
      exact onGrid_contains hs
    · rename_i hnone
      obtain ⟨k, hle, hlt, hk⟩ := h
      refine ih ⟨k, ?_, by omega, hk⟩
      rcases Nat.lt_or_eq_of_le hle with hlt | rfl
      · exact hlt
      · rw [hnone] at hk
        cases hk

theorem shortest_contains (hb : b.Normal) (hm : b.mantissa ≠ 0) :
    (interval b).contains (shortest tie b).coefficient (shortest tie b).exponent = true := by
  rw [shortest, if_neg hm]
  refine search_contains ⟨16, by omega, by omega, ?_⟩
  have hlog : b.mantissa.log2 < 53 := (Nat.log2_lt hm).mpr hb.lt
  have hleast := hb.least
  have hle := hb.le
  have hlead : (10 : ℚ) ^ leading b.mantissa b.exponent ≤ b.mantissa * 2 ^ b.exponent :=
    leading_le hm (by omega) (by omega)
  -- sixteen places below the leading digit the grid is finer than any interval
  have hgrid : (10 : ℚ) ^ (leading b.mantissa b.exponent - (16 : Nat)) ≤
      b.mantissa * 2 ^ b.exponent / 10 ^ 16 := by
    rw [zpow_sub₀ (by norm_num), zpow_natCast]
    exact div_le_div_of_nonneg_right hlead (by positivity)
  have hu : (0 : ℚ) < 2 ^ b.exponent := by positivity
  have hm' : (b.mantissa : ℚ) < 2 ^ 53 := by exact_mod_cast hb.lt
  have hexponent : (interval b).exponent = b.exponent - 2 := rfl
  have hvalue : (interval b).value = 4 * b.mantissa := rfl
  rcases low_interval b with ⟨hlow, hmin, -⟩ | ⟨hlow, -⟩
  · refine onGrid_isSome (by omega) (by rw [hvalue, high_interval]; omega) (hgrid.trans_lt ?_)
    rw [hlow, high_interval, hexponent, two_zpow_sub_two, hmin]
    norm_num
    nlinarith
  · refine onGrid_isSome (by omega) (by rw [hvalue, high_interval]; omega) (hgrid.trans_lt ?_)
    rw [hlow, high_interval, hexponent, two_zpow_sub_two]
    have hsub : ((4 * b.mantissa - 2 : Nat) : ℚ) = 4 * b.mantissa - 2 := by
      rw [Nat.cast_sub (by omega)]
      norm_num
    rw [hsub]
    push_cast
    nlinarith

/-! ## Intervals are disjoint -/

variable {s : Nat} {e : ℤ}

/-- Intervals that share a number overlap, and by more than an end unless both are closed. -/
theorem low_le_of_contains (hb : (interval b).contains s e = true)
    (hc : (interval c).contains s e = true) :
    ((interval c).low : ℚ) * 2 ^ (c.exponent - 2) ≤ (interval b).high * 2 ^ (b.exponent - 2)
      ∧ (b.mantissa % 2 = 1 ∨ c.mantissa % 2 = 1 →
        ((interval c).low : ℚ) * 2 ^ (c.exponent - 2) <
          (interval b).high * 2 ^ (b.exponent - 2)) := by
  obtain ⟨-, hhigh, hopen⟩ := contains_bounds (low_le_high b) hb
  obtain ⟨hlow, -, hopen'⟩ := contains_bounds (low_le_high c) hc
  refine ⟨hlow.trans hhigh, ?_⟩
  rintro (hodd | hodd)
  · exact hlow.trans_lt (hopen (by rw [closed_interval, hodd]; rfl)).2
  · exact (hopen' (by rw [closed_interval, hodd]; rfl)).1.trans_le hhigh

/-- No number rounds to a double and to a greater one. -/
theorem not_contains_of_lt (hb : b.Normal) (hc : c.Normal)
    (hlt : b.exponent < c.exponent ∨ b.exponent = c.exponent ∧ b.mantissa < c.mantissa)
    (h : (interval b).contains s e = true) : (interval c).contains s e ≠ true := by
  intro h'
  obtain ⟨hle, hstrict⟩ := low_le_of_contains h h'
  have hu : (0 : ℚ) < 2 ^ (b.exponent - 2) := by positivity
  have hbleast := hb.least
  have hblt := hb.lt
  rcases hlt with hlt | ⟨heq, hlt⟩
  · have hlead := hc.leading (by omega)
    obtain ⟨k, hk⟩ : ∃ k : Nat, c.exponent - 2 = k + 1 + (b.exponent - 2) :=
      ⟨(c.exponent - b.exponent - 1).toNat, by omega⟩
    -- in units of the smaller one the greater interval begins at twice its low end or above
    have hscale : (((interval c).low * 2 ^ (k + 1) : Nat) : ℚ) * 2 ^ (b.exponent - 2) =
        (interval c).low * 2 ^ (c.exponent - 2) := by
      rw [hk, zpow_add₀ two_ne_zero, Nat.cast_mul, Nat.cast_pow, Nat.cast_ofNat, mul_assoc]
      rfl
    rw [← hscale] at hle hstrict
    have hle' : (interval c).low * 2 ^ (k + 1) ≤ (interval b).high := by
      exact_mod_cast le_of_mul_le_mul_right hle hu
    have hdouble : (interval c).low * 2 ≤ (interval c).low * 2 ^ (k + 1) :=
      Nat.mul_le_mul_left _ (Nat.le_self_pow (by omega) 2)
    have hlow : 2 ^ 54 - 1 ≤ (interval c).low := by
      rcases low_interval c with ⟨h, -⟩ | ⟨h, hmin⟩
      · omega
      · have hne : c.mantissa ≠ 2 ^ 52 := fun hm => by have := hmin hm; omega
        omega
    rw [high_interval] at hle' hstrict
    have hodd : b.mantissa % 2 = 1 := by omega
    have hlt' : (interval c).low * 2 ^ (k + 1) < 4 * b.mantissa + 2 := by
      exact_mod_cast lt_of_mul_lt_mul_right (hstrict (.inl hodd)) hu.le
    omega
  · rw [← heq] at hle hstrict
    have hle' : (interval c).low ≤ (interval b).high := by
      exact_mod_cast le_of_mul_le_mul_right hle hu
    have hlow : (interval c).low = 4 * c.mantissa - 2 := by
      rcases low_interval c with ⟨-, hmin, hexponent⟩ | ⟨h, -⟩
      · have := hb.leading (by omega)
        omega
      · exact h
    rw [hlow, high_interval] at hle' hstrict
    have hodd : b.mantissa % 2 = 1 ∨ c.mantissa % 2 = 1 := by omega
    have hlt' : 4 * c.mantissa - 2 < 4 * b.mantissa + 2 := by
      exact_mod_cast lt_of_mul_lt_mul_right (hstrict hodd) hu.le
    omega

/-- A double is told by any number that rounds to it. -/
theorem eq_of_contains (hb : b.Normal) (hc : c.Normal) (h : (interval b).contains s e = true)
    (h' : (interval c).contains s e = true) :
    b.mantissa = c.mantissa ∧ b.exponent = c.exponent := by
  by_contra hne
  have hlt : (b.exponent < c.exponent ∨ b.exponent = c.exponent ∧ b.mantissa < c.mantissa) ∨
      (c.exponent < b.exponent ∨ c.exponent = b.exponent ∧ c.mantissa < b.mantissa) := by
    omega
  rcases hlt with hlt | hlt
  · exact not_contains_of_lt hb hc hlt h h'
  · exact not_contains_of_lt hc hb hlt h' h

end Shortest

variable {b c : Binary} {tie : Tie}

theorem value_shortest_zero (hm : b.mantissa = 0) : (shortest tie b).value = 0 := by
  rw [shortest, if_pos hm]
  exact zero_mul _

theorem value_shortest_pos (hb : b.Normal) (hm : b.mantissa ≠ 0) :
    0 < (shortest tie b).value := by
  obtain ⟨hlow, -⟩ :=
    Shortest.contains_bounds (Shortest.low_le_high b) (Shortest.shortest_contains hb hm)
  refine lt_of_lt_of_le (mul_pos (Nat.cast_pos.mpr ?_) (by positivity)) hlow
  rcases Shortest.low_interval b with ⟨h, -⟩ | ⟨h, -⟩ <;> omega

theorem eq_of_value_shortest (hb : b.Normal) (hc : c.Normal) (hbm : b.mantissa ≠ 0)
    (hcm : c.mantissa ≠ 0) (h : (shortest tie b).value = (shortest tie c).value) :
    b.mantissa = c.mantissa ∧ b.exponent = c.exponent := by
  have hcontains : (Shortest.interval b).contains (shortest tie b).coefficient
      (shortest tie b).exponent = true := Shortest.shortest_contains hb hbm
  refine Shortest.eq_of_contains hb hc hcontains ?_
  rw [Shortest.contains_congr h]
  exact Shortest.shortest_contains hc hcm

end Verdict.Decimal
