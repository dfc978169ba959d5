import Mathlib.Data.List.TakeWhile
import Verdict.Json.Text
import Verdict.Proofs.Decimal.Shortest

/-!
# Decimal text tells numbers apart

The text of a double, with or without an exponent, is read back as the decimal number that the
shortest digits stand for.  So equal texts have equal digits up to scale, and equal doubles.
-/

namespace Verdict.Decimal

/-! ## Digits -/

theorem bne_of_isDigit {c d : Char} (hc : c.isDigit = true) (hd : d.isDigit = false) :
    (c != d) = true := by
  rw [bne_iff_ne]
  rintro rfl
  rw [hc] at hd
  cases hd

theorem isDigit_of_mem_digits {c : Char} {n : Nat} (h : c ∈ digits n) : c.isDigit = true :=
  Nat.isDigit_of_mem_toDigits (by decide) (by decide) h

theorem ofDigitChars_digits (n : Nat) : Nat.ofDigitChars 10 (digits n) 0 = n :=
  Nat.ofDigitChars_ten_toDigits

theorem ofDigitChars_zeros (k : Nat) (ds : List Char) :
    Nat.ofDigitChars 10 (ds ++ zeros k) 0 = Nat.ofDigitChars 10 ds 0 * 10 ^ k := by
  rw [Nat.ofDigitChars_append, zeros, Nat.ofDigitChars_replicate_zero, Nat.mul_comm]

theorem ofDigitChars_zeros_append (k : Nat) (ds : List Char) :
    Nat.ofDigitChars 10 (zeros k ++ ds) 0 = Nat.ofDigitChars 10 ds 0 := by
  rw [Nat.ofDigitChars_append, zeros, Nat.ofDigitChars_replicate_zero, Nat.mul_zero]

namespace Scaled

theorem exists_zeros (ds : List Char) :
    ∃ k, (ds.reverse.dropWhile (· == '0')).reverse ++ zeros k = ds
      ∧ ds.length - (ds.reverse.dropWhile (· == '0')).length = k := by
  refine ⟨(ds.reverse.takeWhile (· == '0')).length, ?_, ?_⟩
  · have htaken : ds.reverse.takeWhile (· == '0') =
        zeros (ds.reverse.takeWhile (· == '0')).length :=
      List.eq_replicate_of_mem fun c hc =>
        beq_iff_eq.mp (List.all_eq_true.mp List.all_takeWhile c hc)
    rw [zeros, ← List.reverse_replicate, ← zeros, ← htaken, ← List.reverse_append,
      List.takeWhile_append_dropWhile, List.reverse_reverse]
  · have hlength := congrArg List.length
      (List.takeWhile_append_dropWhile (p := (· == '0')) (l := ds.reverse))
    rw [List.length_append, List.length_reverse] at hlength
    omega

/-- Trailing zeros move into the exponent. -/
theorem value_trim (s : Scaled) : s.trim.value = s.value := by
  unfold trim
  split
  · rfl
  · obtain ⟨k, hzeros, hk⟩ := exists_zeros (digits s.coefficient)
    have hcoefficient : (s.coefficient : ℚ) = Nat.ofDigitChars 10
        ((digits s.coefficient).reverse.dropWhile (· == '0')).reverse 0 * 10 ^ k := by
      exact_mod_cast (ofDigitChars_zeros k _ ▸ hzeros ▸ ofDigitChars_digits s.coefficient).symm
    simp only [value, hk]
    rw [hcoefficient, zpow_add₀ (by norm_num), zpow_natCast]
    ring

/-- Positional digits stand for the number, scaled by the number of fraction digits. -/
theorem value_positional (s : Scaled) :
    (Nat.ofDigitChars 10 (s.positional.1 ++ s.positional.2) 0 : ℚ)
      * 10 ^ (-(s.positional.2.length : ℤ)) = s.value := by
  unfold positional
  obtain ⟨c, e⟩ := s
  cases e with
  | ofNat e =>
    dsimp only
    rw [List.append_nil, ofDigitChars_zeros, ofDigitChars_digits]
    simp [value]
  | negSucc e =>
    dsimp only
    have hvalue : (c : ℚ) * 10 ^ (-((e + 1 : Nat) : ℤ)) = value ⟨c, .negSucc e⟩ := rfl
    split
    · rename_i hlength
      have hdigits : Nat.ofDigitChars 10
          (['0'] ++ (zeros (e + 1 - (digits c).length) ++ digits c)) 0 = c := by
        rw [← List.append_assoc, ← List.replicate_one, zeros, List.replicate_append_replicate,
          ← zeros, ofDigitChars_zeros_append, ofDigitChars_digits]
      have hplaces : (zeros (e + 1 - (digits c).length) ++ digits c).length = e + 1 := by
        rw [List.length_append, zeros, List.length_replicate]
        omega
      rw [hdigits, hplaces, hvalue]
    · rename_i hlength
      have hplaces : ((digits c).drop ((digits c).length - (e + 1))).length = e + 1 := by
        rw [List.length_drop]
        omega
      rw [List.take_append_drop, ofDigitChars_digits, hplaces, hvalue]

theorem isDigit_of_mem_positional {s : Scaled} {c : Char}
    (h : c ∈ s.positional.1 ∨ c ∈ s.positional.2) : c.isDigit = true := by
  have hdigit : ∀ c ∈ digits s.coefficient, c.isDigit = true :=
    fun c hc => isDigit_of_mem_digits hc
  have hzero : ∀ k, ∀ c ∈ zeros k, c.isDigit = true := by
    intro k c hc
    rw [List.eq_of_mem_replicate hc]
    rfl
  unfold positional at h
  obtain ⟨n, e⟩ := s
  cases e with
  | ofNat e =>
    simp only [List.mem_append, List.not_mem_nil, or_false] at h
    exact h.elim (hdigit c) (hzero e c)
  | negSucc e =>
    dsimp only at h
    split at h
    · simp only [List.mem_singleton, List.mem_append] at h
      rcases h with rfl | h | h
      · rfl
      · exact hzero _ c h
      · exact hdigit c h
    · exact h.elim (fun h => hdigit c (List.mem_of_mem_take h))
        fun h => hdigit c (List.mem_of_mem_drop h)

end Scaled

/-! ## Reading written numbers -/

def exponentValue : List Char → ℤ
  | '-' :: ds => -(Nat.ofDigitChars 10 ds 0 : ℤ)
  | '+' :: ds => Nat.ofDigitChars 10 ds 0
  | _ => 0

/-- The number that digits with a point and perhaps an exponent stand for. -/
def valueOf (cs : List Char) : ℚ :=
  let written := cs.takeWhile (· != 'e')
  let whole := written.takeWhile (· != '.')
  let fraction := (written.dropWhile (· != '.')).drop 1
  Nat.ofDigitChars 10 (whole ++ fraction) 0
    * 10 ^ (exponentValue ((cs.dropWhile (· != 'e')).drop 1) - fraction.length)

theorem valueOf_positional {whole fraction : List Char} (hwhole : ∀ c ∈ whole, c.isDigit = true)
    (hfraction : ∀ c ∈ fraction, c.isDigit = true) :
    valueOf (whole ++ '.' :: fraction) =
      Nat.ofDigitChars 10 (whole ++ fraction) 0 * 10 ^ (-(fraction.length : ℤ)) := by
  have hwritten : ∀ c ∈ whole ++ '.' :: fraction, (c != 'e') = true := by
    intro c hc
    rcases List.mem_append.mp hc with hc | hc
    · exact bne_of_isDigit (hwhole c hc) rfl
    · rcases List.mem_cons.mp hc with rfl | hc
      · rfl
      · exact bne_of_isDigit (hfraction c hc) rfl
  have hpoint : ∀ c ∈ whole, (c != '.') = true := fun c hc => bne_of_isDigit (hwhole c hc) rfl
  have htake := List.takeWhile_eq_self_iff.mpr hwritten
  have hdrop := List.dropWhile_eq_nil_iff.mpr hwritten
  simp only [valueOf]
  rw [htake, hdrop, List.takeWhile_append_of_pos hpoint, List.dropWhile_append_of_pos hpoint]
  simp [exponentValue]

def pointed : List Char → List Char
  | d :: e :: rest => d :: '.' :: e :: rest
  | ds => ds

def signedDigits (e : ℤ) : List Char :=
  (if e < 0 then '-' else '+') :: digits e.natAbs

theorem exponentValue_signedDigits (e : ℤ) : exponentValue (signedDigits e) = e := by
  unfold signedDigits
  split
  · rw [exponentValue, ofDigitChars_digits]
    omega
  · rw [exponentValue, ofDigitChars_digits]
    omega

theorem mem_pointed {c : Char} {ds : List Char} (h : c ∈ pointed ds) : c = '.' ∨ c ∈ ds := by
  rcases ds with _ | ⟨d, _ | ⟨d', rest⟩⟩
  · exact .inr h
  · exact .inr h
  · simp only [pointed, List.mem_cons] at h ⊢
    tauto

theorem valueOf_scientific {ds : List Char} (hds : ∀ c ∈ ds, c.isDigit = true) (e : ℤ) :
    valueOf (pointed ds ++ 'e' :: signedDigits e) =
      Nat.ofDigitChars 10 ds 0 * 10 ^ (e - (ds.length - 1 : Nat)) := by
  have hwritten : ∀ c ∈ pointed ds, (c != 'e') = true := by
    intro c hc
    rcases mem_pointed hc with rfl | hc
    · rfl
    · exact bne_of_isDigit (hds c hc) rfl
  simp only [valueOf]
  rw [List.takeWhile_append_of_pos hwritten, List.dropWhile_append_of_pos hwritten,
    List.takeWhile_cons_of_neg (by decide), List.dropWhile_cons_of_neg (by decide),
    List.append_nil, show ('e' :: signedDigits e).drop 1 = signedDigits e from rfl,
    exponentValue_signedDigits]
  rcases ds with _ | ⟨d, _ | ⟨d', rest⟩⟩
  · simp [pointed]
  · have hd : (d != '.') = true := bne_of_isDigit (hds d List.mem_cons_self) rfl
    simp [pointed, hd]
  · have hd : (d != '.') = true := bne_of_isDigit (hds d List.mem_cons_self) rfl
    simp [pointed, hd]

/-! ## Text of doubles -/

def magnitudeText (b : Binary) : List Char :=
  let s := (shortest .even b).trim
  if b.mantissa = 0 then ['0', '.', '0']
  else if -5 ≤ s.magnitude ∧ s.magnitude < 16 then
    s.positional.1 ++ '.' :: if s.positional.2.isEmpty then ['0'] else s.positional.2
  else pointed (digits s.coefficient) ++ 'e' :: signedDigits s.magnitude

theorem toList_floatText (x : Float) :
    (Number.floatText x).toList =
      (if (Binary.ofFloat x).negative then ['-'] else []) ++ magnitudeText (.ofFloat x) := by
  have hsign : (if (Binary.ofFloat x).negative then "-" else "").toList =
      if (Binary.ofFloat x).negative then ['-'] else [] := by
    cases (Binary.ofFloat x).negative <;> rfl
  unfold Number.floatText magnitudeText
  dsimp only
  split
  · rw [String.toList_append, hsign]
    rfl
  · split
    · simp only [String.toList_append, String.toList_ofList, hsign, List.append_assoc,
        apply_ite String.toList]
      rfl
    · simp only [String.toList_append, String.toList_ofList, hsign, List.append_assoc,
        Nat.toString_eq_ofList_toDigits]
      congr 2
      unfold signedDigits
      split <;> rfl

theorem valueOf_magnitudeText (b : Binary) :
    valueOf (magnitudeText b) = (shortest .even b).value := by
  have hzero : ∀ c ∈ ['0'], c.isDigit = true := List.forall_mem_singleton.mpr rfl
  unfold magnitudeText
  dsimp only
  split
  · rename_i hm
    rw [show ['0', '.', '0'] = ['0'] ++ '.' :: ['0'] from rfl, valueOf_positional hzero hzero,
      value_shortest_zero hm]
    exact zero_mul _
  · rw [← Scaled.value_trim]
    set s := (shortest .even b).trim
    split
    · have hwhole : ∀ c ∈ s.positional.1, c.isDigit = true :=
        fun c hc => Scaled.isDigit_of_mem_positional (.inl hc)
      have hfraction : ∀ c ∈ s.positional.2, c.isDigit = true :=
        fun c hc => Scaled.isDigit_of_mem_positional (.inr hc)
      have hvalue := s.value_positional
      cases hempty : s.positional.2.isEmpty with
      | false => exact (valueOf_positional hwhole hfraction).trans hvalue
      | true =>
        rw [List.isEmpty_iff.mp hempty, List.append_nil] at hvalue
        rw [if_pos rfl, valueOf_positional hwhole hzero, show ['0'] = zeros 1 from rfl,
          ofDigitChars_zeros, ← hvalue]
        simp [zeros]
    · rw [valueOf_scientific fun c hc => isDigit_of_mem_digits hc, ofDigitChars_digits,
        Scaled.value, Scaled.magnitude]
      have hlength : 0 < (digits s.coefficient).length := Nat.length_toDigits_pos
      congr 2
      omega

def isNumeric (c : Char) : Bool :=
  c.isDigit || c == '-' || c == '+' || c == '.' || c == 'e'

theorem isNumeric_of_isDigit {c : Char} (h : c.isDigit = true) : isNumeric c = true := by
  rw [isNumeric, h]
  rfl

theorem isNumeric_of_mem_magnitudeText {b : Binary} {c : Char} (h : c ∈ magnitudeText b) :
    isNumeric c = true := by
  unfold magnitudeText at h
  dsimp only at h
  split at h
  · simp only [List.mem_cons, List.not_mem_nil, or_false] at h
    rcases h with rfl | rfl | rfl <;> rfl
  · split at h
    · rcases List.mem_append.mp h with h | h
      · exact isNumeric_of_isDigit (Scaled.isDigit_of_mem_positional (.inl h))
      · rcases List.mem_cons.mp h with rfl | h
        · rfl
        · split at h
          · rw [List.mem_singleton.mp h]
            rfl
          · exact isNumeric_of_isDigit (Scaled.isDigit_of_mem_positional (.inr h))
    · rcases List.mem_append.mp h with h | h
      · rcases mem_pointed h with rfl | h
        · rfl
        · exact isNumeric_of_isDigit (isDigit_of_mem_digits h)
      · unfold signedDigits at h
        simp only [List.mem_cons] at h
        rcases h with rfl | rfl | h
        · rfl
        · split <;> rfl
        · exact isNumeric_of_isDigit (isDigit_of_mem_digits h)

theorem mem_or_eq_of_head?_append {l r : List Char} {c d : Char}
    (h : (l ++ d :: r).head? = some c) : c ∈ l ∨ c = d := by
  cases l with
  | nil => exact .inr (Option.some.inj h).symm
  | cons x l => exact .inl (Option.some.inj h ▸ List.mem_cons_self)

/-- Without its sign the text of a double begins with no sign. -/
theorem head?_magnitudeText (b : Binary) : (magnitudeText b).head? ≠ some '-' := by
  unfold magnitudeText
  dsimp only
  split
  · decide
  · split
    · intro h
      rcases mem_or_eq_of_head?_append h with h | h
      · cases Scaled.isDigit_of_mem_positional (.inl h)
      · cases h
    · intro h
      rcases mem_or_eq_of_head?_append h with h | h
      · rcases mem_pointed h with h | h
        · cases h
        · cases isDigit_of_mem_digits h
      · cases h

/-- Only zero has no digits but zeros, and then the exponent is the least one. -/
theorem Binary.Normal.exponent_of_zero {b : Binary} (hb : b.Normal) (h : b.mantissa = 0) :
    b.exponent = -1074 := by
  have hleast := hb.least
  by_contra hne
  have := hb.leading (by omega)
  omega

theorem parts_eq_of_value_shortest {tie : Tie} {b c : Binary} (hb : b.Normal) (hc : c.Normal)
    (h : (shortest tie b).value = (shortest tie c).value) :
    b.mantissa = c.mantissa ∧ b.exponent = c.exponent := by
  by_cases hbm : b.mantissa = 0
  · by_cases hcm : c.mantissa = 0
    · rw [hbm, hcm, hb.exponent_of_zero hbm, hc.exponent_of_zero hcm]
      exact ⟨rfl, rfl⟩
    · rw [value_shortest_zero hbm] at h
      exact absurd h (value_shortest_pos hc hcm).ne
  · by_cases hcm : c.mantissa = 0
    · rw [value_shortest_zero hcm] at h
      exact absurd h (value_shortest_pos hb hbm).ne'
    · exact eq_of_value_shortest hb hc hbm hcm h

/-- A sign before texts that begin with none. -/
theorem eq_of_signed {p q : Bool} {cs ds : List Char} (hcs : cs.head? ≠ some '-')
    (hds : ds.head? ≠ some '-')
    (h : (if p then ['-'] else []) ++ cs = (if q then ['-'] else []) ++ ds) : p = q ∧ cs = ds := by
  cases p <;> cases q
  · exact ⟨rfl, h⟩
  · exact absurd (congrArg List.head? h) hcs
  · exact absurd (congrArg List.head? h).symm hds
  · exact ⟨rfl, (List.cons.inj h).2⟩

/-- A text of a double tells it if it has its sign in front and the value of its shortest digits. -/
theorem eq_of_signed_value {tie : Tie} {magnitude : Binary → List Char}
    (hhead : ∀ b, (magnitude b).head? ≠ some '-')
    (hvalue : ∀ b, valueOf (magnitude b) = (shortest tie b).value) {x y : Float}
    (h : (if (Binary.ofFloat x).negative then ['-'] else []) ++ magnitude (.ofFloat x) =
      (if (Binary.ofFloat y).negative then ['-'] else []) ++ magnitude (.ofFloat y)) : x = y := by
  obtain ⟨hsign, hmagnitude⟩ := eq_of_signed (hhead _) (hhead _) h
  have hvalues := congrArg valueOf hmagnitude
  rw [hvalue, hvalue] at hvalues
  obtain ⟨hmantissa, hexponent⟩ :=
    parts_eq_of_value_shortest (Binary.normal_ofFloat x) (Binary.normal_ofFloat y) hvalues
  apply Binary.ofFloat_injective
  cases hx : Binary.ofFloat x
  cases hy : Binary.ofFloat y
  rw [hx, hy] at hsign hmantissa hexponent
  rw [Binary.mk.injEq]
  exact ⟨hsign, hmantissa, hexponent⟩

theorem floatText_injective {x y : Float} (h : Number.floatText x = Number.floatText y) :
    x = y := by
  have hlist := congrArg String.toList h
  rw [toList_floatText, toList_floatText] at hlist
  exact eq_of_signed_value head?_magnitudeText valueOf_magnitudeText hlist

end Verdict.Decimal
