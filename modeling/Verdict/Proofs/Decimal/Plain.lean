import Verdict.Proofs.Decimal.Text
import Verdict.Proofs.Decimal.Whole

/-!
# Numbers in positional notation

A whole number of at most 53 bits is written with its decimal digits: every candidate of the search
for its shortest digits that comes as close as half of one is the number itself.  Other doubles are
written with their shortest digits, and no two doubles with the same text.
-/

namespace Verdict.Decimal

open Shortest

variable {b : Binary} {tie : Tie} {i : Interval}

/-! ## Whole numbers -/

theorem natAbs_truncate (b : Binary) : b.truncate.natAbs = b.ratio.1 / b.ratio.2 := by
  change (if b.negative then -((b.ratio.1 / b.ratio.2 : Nat) : Int) else
    (b.ratio.1 / b.ratio.2 : Nat)).natAbs = _
  generalize b.ratio.1 / b.ratio.2 = n
  split <;> omega

theorem truncate_eq (b : Binary) :
    b.truncate = if b.negative then -(b.truncate.natAbs : Int) else b.truncate.natAbs := by
  rw [natAbs_truncate]
  rfl

theorem ratio_pos (b : Binary) : 0 < b.ratio.2 := by
  obtain ⟨negative, m, _ | e⟩ := b
  · exact one_pos
  · exact Nat.two_pow_pos (e + 1)

theorem ratio_eq (b : Binary) :
    (b.ratio.1 : ℚ) / b.ratio.2 = b.mantissa * 2 ^ b.exponent := by
  obtain ⟨negative, m, e⟩ := b
  cases e with
  | ofNat e =>
    change ((m * 2 ^ e : Nat) : ℚ) / (1 : Nat) = m * 2 ^ (e : ℤ)
    rw [Nat.cast_one, div_one, zpow_natCast]
    push_cast
    rfl
  | negSucc e =>
    change (m : ℚ) / (2 ^ (e + 1) : Nat) = m * 2 ^ Int.negSucc e
    rw [zpow_negSucc]
    push_cast
    rfl

theorem value_of_isWhole (h : b.isWhole = true) :
    (b.mantissa : ℚ) * 2 ^ b.exponent = b.truncate.natAbs := by
  have hdvd : b.ratio.2 ∣ b.ratio.1 := Nat.dvd_of_mod_eq_zero (beq_iff_eq.mp h)
  rw [← ratio_eq, natAbs_truncate, Nat.cast_div hdvd]
  exact Nat.cast_ne_zero.mpr (ratio_pos b).ne'

theorem natAbs_truncate_ne_zero (hwhole : b.isWhole = true) (hm : b.mantissa ≠ 0) :
    b.truncate.natAbs ≠ 0 := by
  intro hzero
  have hvalue := value_of_isWhole hwhole
  have hpos : (0 : ℚ) < b.mantissa * 2 ^ b.exponent :=
    mul_pos (Nat.cast_pos.mpr (Nat.pos_of_ne_zero hm)) (by positivity)
  rw [hvalue, hzero, Nat.cast_zero] at hpos
  exact lt_irrefl _ hpos

theorem exponent_nonpos_of_whole (hb : b.Normal) (hwhole : b.isWhole = true)
    (hlt : b.truncate.natAbs < 2 ^ 53) : b.exponent ≤ 0 := by
  by_contra hpos
  have hvalue := value_of_isWhole hwhole
  have hlead := hb.leading (by omega)
  obtain ⟨k, hk⟩ : ∃ k : Nat, b.exponent = k + 1 := ⟨(b.exponent - 1).toNat, by omega⟩
  have hnat : b.mantissa * 2 ^ (k + 1) = b.truncate.natAbs := by
    rw [hk] at hvalue
    exact_mod_cast hvalue
  have hdouble : b.mantissa * 2 ≤ b.mantissa * 2 ^ (k + 1) :=
    Nat.mul_le_mul_left _ (Nat.le_self_pow (by omega) 2)
  omega

/-- Half the distance between neighbours is half of one at most. -/
theorem two_zpow_le {e : ℤ} (he : e ≤ 0) : (2 : ℚ) ^ (e - 2) ≤ 1 / 4 := by
  rw [two_zpow_sub_two]
  have hone : (2 : ℚ) ^ e ≤ 1 := zpow_le_one_of_nonpos₀ one_le_two he
  linarith

namespace Shortest

theorem exponent_onGrid {e : ℤ} {s : Scaled} (h : onGrid tie i e = some s) : s.exponent = e := by
  dsimp only [onGrid] at h
  split at h <;> cases h <;> rfl

theorem onGrid_search {top : ℤ} {fuel count k : Nat} (hle : count ≤ k) (hlt : k < count + fuel)
    (hk : (onGrid tie i (top - k)).isSome) :
    ∃ j ≤ k, onGrid tie i (top - j) = some (search tie i top fuel count) := by
  induction fuel generalizing count with
  | zero => omega
  | succ fuel ih =>
    rw [search]
    split
    · rename_i s hs
      exact ⟨count, hle, hs⟩
    · rename_i hnone
      refine ih ?_ (by omega)
      rcases Nat.lt_or_eq_of_le hle with hlt | rfl
      · exact hlt
      · rw [hnone] at hk
        cases hk

theorem log2_add_nonneg {m : Nat} {p : ℤ} (hone : (1 : ℚ) ≤ m * 2 ^ p) :
    0 ≤ (m.log2 : ℤ) + p := by
  by_contra hneg
  have hpow : m < 2 ^ (m.log2 + 1) := Nat.lt_log2_self
  have hpow' : (m : ℚ) < 2 ^ (m.log2 + 1 : ℤ) := by exact_mod_cast hpow
  have hsmall : (m : ℚ) * 2 ^ p < 1 := by
    calc (m : ℚ) * 2 ^ p
        < 2 ^ (m.log2 + 1 : ℤ) * 2 ^ p := mul_lt_mul_of_pos_right hpow' (by positivity)
      _ = 2 ^ (m.log2 + 1 + p : ℤ) := (zpow_add₀ two_ne_zero _ _).symm
      _ ≤ 1 := zpow_le_one_of_nonpos₀ one_le_two (by omega)
  exact absurd hsmall (not_lt.mpr hone)

theorem leading_nonneg {m : Nat} {p : ℤ} (hone : (1 : ℚ) ≤ m * 2 ^ p) : 0 ≤ leading m p := by
  have hlog := log2_add_nonneg hone
  have hguess : 0 ≤ ((m.log2 + p) * 30103).fdiv 100000 := by
    rw [Int.fdiv_eq_ediv_of_nonneg _ (by norm_num)]
    omega
  unfold leading
  simp only [beq_iff_eq, compareScales_lt, Nat.cast_one, one_mul]
  generalize ((m.log2 + p) * 30103).fdiv 100000 = guess at hguess
  split
  · rename_i hbelow
    have hne : guess ≠ 0 := by
      rintro rfl
      rw [zpow_zero] at hbelow
      exact absurd hbelow (not_lt.mpr hone)
    omega
  · split <;> omega

/-- A whole number on a grid of whole numbers rounds to a whole double only if it is that double. -/
theorem eq_of_contains_whole {n s k : Nat} (he : b.exponent ≤ 0)
    (hn : (b.mantissa : ℚ) * 2 ^ b.exponent = n)
    (h : (interval b).contains s k = true) : s * 10 ^ k = n := by
  obtain ⟨hlow, hhigh, -⟩ := contains_bounds (low_le_high b) h
  have hexponent : (interval b).exponent = b.exponent - 2 := rfl
  have hquarter := two_zpow_le he
  have hunit : (0 : ℚ) < 2 ^ (b.exponent - 2) := by positivity
  have hn' : (4 * b.mantissa : ℚ) * 2 ^ (b.exponent - 2) = n := by
    rw [two_zpow_sub_two, ← hn]
    ring
  have hlow' : (4 * b.mantissa - 2 : ℚ) ≤ (interval b).low := by
    have : 4 * b.mantissa - 2 ≤ (interval b).low := by
      rcases low_interval b with ⟨h, -⟩ | ⟨h, -⟩ <;> omega
    have hcast : ((4 * b.mantissa : Nat) : ℚ) ≤ ((interval b).low + 2 : Nat) := by
      exact_mod_cast (by omega : 4 * b.mantissa ≤ (interval b).low + 2)
    push_cast at hcast
    linarith
  rw [hexponent] at hlow hhigh
  rw [high_interval] at hhigh
  push_cast at hhigh
  rw [zpow_natCast] at hlow hhigh
  have hscaled := mul_le_mul_of_nonneg_right hlow' hunit.le
  rw [sub_mul, hn'] at hscaled
  rw [add_mul, hn'] at hhigh
  have habove : (s * 10 ^ k : ℚ) < n + 1 := by linarith
  have hbelow : (n : ℚ) < s * 10 ^ k + 1 := by linarith
  have habove' : s * 10 ^ k < n + 1 := by exact_mod_cast habove
  have hbelow' : n < s * 10 ^ k + 1 := by exact_mod_cast hbelow
  omega

theorem onGrid_one_isSome {n : Nat} (hne : n ≠ 0)
    (hn : (b.mantissa : ℚ) * 2 ^ b.exponent = n) : (onGrid tie (interval b) 0).isSome := by
  have hvalue : ((interval b).value : ℚ) * 2 ^ (interval b).exponent = n := by
    change ((4 * b.mantissa : Nat) : ℚ) * 2 ^ (b.exponent - 2) = n
    rw [two_zpow_sub_two, ← hn]
    push_cast
    ring
  have hfloor : floorOn (interval b).value (interval b).exponent 0 = n := by
    have hle := floorOn_le (interval b).value (interval b).exponent 0
    have hlt := lt_floorOn_succ (interval b).value (interval b).exponent 0
    rw [hvalue, zpow_zero, mul_one] at hle hlt
    have hle' : floorOn (interval b).value (interval b).exponent 0 ≤ n := by exact_mod_cast hle
    have hlt' : n < floorOn (interval b).value (interval b).exponent 0 + 1 := by
      exact_mod_cast hlt
    omega
  have hpow : (0 : ℚ) < 2 ^ (interval b).exponent := by positivity
  have hmantissa : b.mantissa ≠ 0 := by
    intro hzero
    rw [hzero, Nat.cast_zero, zero_mul] at hn
    exact hne (by exact_mod_cast hn.symm)
  have hcontains : (interval b).contains n 0 = true := by
    apply contains_of_between <;> rw [zpow_zero, mul_one, ← hvalue] <;>
      refine mul_lt_mul_of_pos_right (Nat.cast_lt.mpr ?_) hpow
    · change _ < 4 * b.mantissa
      rcases low_interval b with ⟨h, -⟩ | ⟨h, -⟩ <;> omega
    · change 4 * b.mantissa < 4 * b.mantissa + 2
      omega
  have hsome : (n != 0) = true := bne_iff_ne.mpr hne
  rw [onGrid]
  simp only [hfloor, hcontains, hsome]
  cases (interval b).contains (n + 1) 0 <;> rfl

end Shortest

/-- A number of at most 53 bits has at most seventeen digits. -/
theorem leading_of_whole {n : Nat} (hb : b.Normal) (hm : b.mantissa ≠ 0) (he : b.exponent ≤ 0)
    (hn : (b.mantissa : ℚ) * 2 ^ b.exponent = n) (hne : n ≠ 0) (hlt : n < 2 ^ 53) :
    0 ≤ leading b.mantissa b.exponent ∧ leading b.mantissa b.exponent < 17 := by
  have hone : (1 : ℚ) ≤ b.mantissa * 2 ^ b.exponent := by
    rw [hn]
    exact_mod_cast Nat.one_le_iff_ne_zero.mpr hne
  refine ⟨leading_nonneg hone, ?_⟩
  by_contra hge
  have hleast := hb.least
  have hlog : b.mantissa.log2 < 53 := (Nat.log2_lt hm).mpr hb.lt
  have hle : (10 : ℚ) ^ leading b.mantissa b.exponent ≤ n := by
    rw [← hn]
    exact leading_le hm (by omega) (by omega)
  have hmono : (10 : ℚ) ^ (17 : ℤ) ≤ 10 ^ leading b.mantissa b.exponent :=
    zpow_le_zpow_right₀ (by norm_num) (not_lt.mp hge)
  have hn' : (n : ℚ) < 2 ^ 53 := by exact_mod_cast hlt
  norm_num at hmono
  linarith

/-- The shortest digits of a whole number of at most 53 bits are its own. -/
theorem shortest_whole (hb : b.Normal) (hm : b.mantissa ≠ 0) (hwhole : b.isWhole = true)
    (hlt : b.truncate.natAbs < 2 ^ 53) :
    0 ≤ (shortest tie b).exponent ∧
      (shortest tie b).coefficient * 10 ^ (shortest tie b).exponent.toNat =
        b.truncate.natAbs := by
  have he := exponent_nonpos_of_whole hb hwhole hlt
  have hn := value_of_isWhole hwhole
  have hne := natAbs_truncate_ne_zero hwhole hm
  generalize b.truncate.natAbs = n at hn hlt hne
  obtain ⟨hlead, hlead'⟩ := leading_of_whole hb hm he hn hne hlt
  obtain ⟨k, hk⟩ := Int.eq_ofNat_of_zero_le hlead
  rw [shortest, if_neg hm, hk]
  -- the grid of whole numbers holds the number itself, so the search ends there or before
  have hunit : (onGrid tie (interval b) ((k : ℤ) - k)).isSome := by
    rw [sub_self]
    exact onGrid_one_isSome hne hn
  obtain ⟨j, hj, hgrid⟩ := onGrid_search (Nat.zero_le k) (show k < 0 + 17 by omega) hunit
  have hexponent := exponent_onGrid hgrid
  have hcontains := onGrid_contains hgrid
  have hnat : (k : ℤ) - j = (k - j : Nat) := by omega
  rw [hexponent, hnat] at hcontains
  rw [hexponent, hnat, Int.toNat_natCast]
  exact ⟨Int.natCast_nonneg _, eq_of_contains_whole he hn hcontains⟩

/-! ## Positional text -/

theorem digits_mul_ten_pow {n : Nat} (hn : n ≠ 0) (k : Nat) :
    digits (n * 10 ^ k) = digits n ++ zeros k := by
  induction k with
  | zero => rw [pow_zero, mul_one, zeros, List.replicate_zero, List.append_nil]
  | succ k ih =>
    have hpos : 0 < n * 10 ^ k := by positivity
    have hlast := Nat.toDigits_append_toDigits (by decide : 1 < 10) hpos (by decide : 0 < 10)
    rw [pow_succ, ← mul_assoc, mul_comm]
    change Nat.toDigits 10 (10 * (n * 10 ^ k) + 0) = _
    rw [← hlast]
    change digits (n * 10 ^ k) ++ ['0'] = _
    rw [ih, zeros, zeros, List.replicate_succ', List.append_assoc]

def plainMagnitude (b : Binary) : List Char :=
  let parts := (shortest .up b).trim.positional
  parts.1 ++ if parts.2.isEmpty then [] else '.' :: parts.2

theorem toList_plainText (x : Float) :
    (plainText x).toList =
      (if (Binary.ofFloat x).negative then ['-'] else []) ++ plainMagnitude (.ofFloat x) := by
  unfold plainText plainMagnitude
  rw [String.toList_ofList, List.append_assoc]

theorem exponent_le_trim (s : Scaled) : s.exponent ≤ s.trim.exponent := by
  unfold Scaled.trim
  split
  · exact le_refl _
  · exact le_add_of_nonneg_right (Int.natCast_nonneg _)

theorem positional_of_nonneg {s : Scaled} (h : 0 ≤ s.exponent) :
    s.positional = (digits s.coefficient ++ zeros s.exponent.toNat, []) := by
  obtain ⟨c, e⟩ := s
  obtain ⟨k, rfl⟩ := Int.eq_ofNat_of_zero_le h
  rfl

/-- A scaled number that is whole is written with its digits. -/
theorem positional_whole {s : Scaled} {n : Nat} (hexponent : 0 ≤ s.exponent) (hne : n ≠ 0)
    (hn : s.coefficient * 10 ^ s.exponent.toNat = n) :
    s.positional = (digits n, []) := by
  have hcoefficient : s.coefficient ≠ 0 := by
    intro hzero
    rw [hzero, zero_mul] at hn
    exact hne hn.symm
  rw [positional_of_nonneg hexponent, ← hn, digits_mul_ten_pow hcoefficient]

theorem trim_whole {s : Scaled} {n : Nat} (hexponent : 0 ≤ s.exponent)
    (hn : s.coefficient * 10 ^ s.exponent.toNat = n) :
    0 ≤ s.trim.exponent ∧ s.trim.coefficient * 10 ^ s.trim.exponent.toNat = n := by
  have htrim := hexponent.trans (exponent_le_trim s)
  refine ⟨htrim, ?_⟩
  have hvalue := s.value_trim
  rw [Scaled.value, Scaled.value, ← Int.toNat_of_nonneg htrim, ← Int.toNat_of_nonneg hexponent,
    zpow_natCast, zpow_natCast] at hvalue
  rw [← hn]
  exact_mod_cast hvalue

theorem plainMagnitude_whole (hb : b.Normal) (hm : b.mantissa ≠ 0)
    (hwhole : b.isWhole = true) (hlt : b.truncate.natAbs < 2 ^ 53) :
    plainMagnitude b = digits b.truncate.natAbs := by
  obtain ⟨hexponent, hn⟩ := shortest_whole hb hm hwhole hlt
  have hne := natAbs_truncate_ne_zero hwhole hm
  obtain ⟨hexponent', hn'⟩ := trim_whole hexponent hn
  unfold plainMagnitude
  rw [positional_whole hexponent' hne hn']
  exact List.append_nil _

theorem toList_toString_nat (n : Nat) : (toString n).toList = digits n := by
  rw [Nat.toString_eq_ofList_toDigits, String.toList_ofList]
  rfl

theorem toList_toString_int (n : Int) :
    (toString n).toList = (if n < 0 then ['-'] else []) ++ digits n.natAbs := by
  cases n with
  | ofNat n =>
    rw [if_neg (show ¬Int.ofNat n < 0 by simp)]
    exact toList_toString_nat n
  | negSucc n =>
    rw [if_pos (Int.negSucc_lt_zero n)]
    change ("-" ++ toString (n + 1)).toList = _
    rw [String.toList_append, toList_toString_nat]
    rfl

/-- A whole number other than zero, of at most 53 bits, is written with its decimal digits. -/
theorem plainText_whole {x : Float} (hwhole : (Binary.ofFloat x).isWhole = true)
    (hlt : (truncate x).natAbs < 2 ^ 53) (hm : (Binary.ofFloat x).mantissa ≠ 0) :
    plainText x = toString (truncate x) := by
  have hne : (truncate x).natAbs ≠ 0 := natAbs_truncate_ne_zero hwhole hm
  have hsign : (Binary.ofFloat x).negative = true ↔ truncate x < 0 := by
    have htruncate : truncate x = _ := truncate_eq (Binary.ofFloat x)
    cases hnegative : (Binary.ofFloat x).negative
    · rw [hnegative, if_neg (by decide)] at htruncate
      exact ⟨nofun, fun h => absurd h (by omega)⟩
    · rw [hnegative, if_pos rfl] at htruncate
      exact ⟨fun _ => by omega, fun _ => rfl⟩
  apply String.toList_injective
  rw [toList_plainText, toList_toString_int,
    plainMagnitude_whole (Binary.normal_ofFloat x) hm hwhole hlt]
  simp only [hsign]
  rfl

theorem valueOf_digits {ds : List Char} (hds : ∀ c ∈ ds, c.isDigit = true) :
    valueOf ds = Nat.ofDigitChars 10 ds 0 := by
  have hwritten : ∀ c ∈ ds, (c != 'e') = true := fun c hc => bne_of_isDigit (hds c hc) rfl
  have hpoint : ∀ c ∈ ds, (c != '.') = true := fun c hc => bne_of_isDigit (hds c hc) rfl
  simp only [valueOf]
  rw [List.takeWhile_eq_self_iff.mpr hwritten, List.dropWhile_eq_nil_iff.mpr hwritten,
    List.takeWhile_eq_self_iff.mpr hpoint, List.dropWhile_eq_nil_iff.mpr hpoint]
  simp [exponentValue]

theorem valueOf_plainMagnitude (b : Binary) :
    valueOf (plainMagnitude b) = (shortest .up b).value := by
  rw [← Scaled.value_trim]
  unfold plainMagnitude
  set s := (shortest .up b).trim
  have hwhole : ∀ c ∈ s.positional.1, c.isDigit = true :=
    fun c hc => Scaled.isDigit_of_mem_positional (.inl hc)
  have hfraction : ∀ c ∈ s.positional.2, c.isDigit = true :=
    fun c hc => Scaled.isDigit_of_mem_positional (.inr hc)
  have hvalue := s.value_positional
  dsimp only
  cases hempty : s.positional.2.isEmpty with
  | false => exact (valueOf_positional hwhole hfraction).trans hvalue
  | true =>
    rw [List.isEmpty_iff.mp hempty, List.append_nil, List.length_nil, Nat.cast_zero, neg_zero,
      zpow_zero, mul_one] at hvalue
    rw [if_pos rfl, List.append_nil, valueOf_digits hwhole, hvalue]

theorem head?_plainMagnitude (b : Binary) : (plainMagnitude b).head? ≠ some '-' := by
  intro h
  have hmem := List.mem_of_mem_head? (Option.mem_def.mpr h)
  unfold plainMagnitude at hmem
  rcases List.mem_append.mp hmem with hwhole | htail
  · cases Scaled.isDigit_of_mem_positional (.inl hwhole)
  · split at htail
    · cases htail
    · rcases List.mem_cons.mp htail with hpoint | hfraction
      · cases hpoint
      · cases Scaled.isDigit_of_mem_positional (.inr hfraction)

theorem plainText_injective {x y : Float} (h : plainText x = plainText y) : x = y := by
  have hlist := congrArg String.toList h
  rw [toList_plainText, toList_plainText] at hlist
  exact eq_of_signed_value head?_plainMagnitude valueOf_plainMagnitude hlist

/-! ## Numbers of 64 bits -/

theorem mantissa_ofInt {n : Int} (hne : n ≠ 0) (hlt : n.natAbs < 2 ^ 64) :
    (Binary.ofFloat (Float.ofInt n)).mantissa ≠ 0 := by
  obtain ⟨m, e, hfull, hn⟩ := exists_full_ofInt hne hlt
  rw [hn, hfull.ofFloat_toFloat]
  exact hfull.pos.ne'

/-- A number of at most 53 bits, or the least with one bit more, is written as it is. -/
theorem plainText_ofInt {n : Int} (hle : n.natAbs ≤ 2 ^ 53) :
    plainText (Float.ofInt n) = toString n := by
  rcases Nat.lt_or_eq_of_le hle with hlt | htop
  · by_cases hne : n = 0
    · subst hne
      decide
    · obtain ⟨-, hwhole, htruncate⟩ := whole_ofInt hlt
      have htruncate : truncate (Float.ofInt n) = n := htruncate
      rw [plainText_whole hwhole (htruncate.symm ▸ hlt) (mantissa_ofInt hne (by omega)),
        htruncate]
  · obtain rfl | rfl : n = 2 ^ 53 ∨ n = -2 ^ 53 := by omega
    · decide
    · decide

end Verdict.Decimal
