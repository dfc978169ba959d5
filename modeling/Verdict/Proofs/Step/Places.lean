import Verdict.Proofs.Calendar.Written
import Verdict.Proofs.Decimal.Comparison
import Verdict.Proofs.Json.Equality
import Verdict.Proofs.Step.Numeral

/-!
# Places and signs of written numbers

The two numbers of places that a step asks for are brought into one range, whatever they are.  The
fraction of a rounded number loses only zeros at its end, down to the least number of places, and
the minus is written for the numbers below zero of which a digit other than zero is left.
-/

namespace Verdict

open Decimal

/-! ## Numbers below zero -/

namespace Decimal

open Float.Model (UnpackedFloat)
open Float.Model.UnpackedFloat (Sign)

/-- The parts of a number that is not infinite. -/
theorem unpack_cases {x : Float} (h : x ≠ Float.nan) :
    (x.toModel.unpack = .infinity (Binary.ofFloat x).sign ∧ (Binary.ofFloat x).mantissa ≠ 0) ∨
    (x.toModel.unpack = .zero (Binary.ofFloat x).sign ∧ (Binary.ofFloat x).mantissa = 0) ∨
    ∃ hm, x.toModel.unpack = .finite (Binary.ofFloat x).sign (Binary.ofFloat x).mantissa
      (Binary.ofFloat x).exponent hm := by
  have hx := unpack_eq x
  split_ifs at hx with htop hfraction hzero
  · refine .inl ⟨hx, ?_⟩
    have := Binary.mantissa_ofFloat x
    omega
  · have hnan : x.toModel.unpack.isNaN = true := by rw [hx]; rfl
    change x.isNaN = true at hnan
    rw [Float.isNaN_eq_decide_eq_nan, decide_eq_true_iff] at hnan
    exact absurd hnan h
  · exact .inr (.inl ⟨hx, hzero⟩)
  · exact .inr (.inr ⟨_, hx⟩)

theorem lt_zero_iff {x : Float} (h : x ≠ Float.nan) :
    x < 0 ↔ (Binary.ofFloat x).negative = true ∧ (Binary.ofFloat x).mantissa ≠ 0 := by
  have hzero : (0 : Float).toModel.unpack = .zero .positive := rfl
  rw [lt_iff, hzero]
  obtain ⟨hx, hm⟩ | ⟨hx, hm⟩ | ⟨hm, hx⟩ := unpack_cases h
  · rw [hx, Binary.sign]
    cases (Binary.ofFloat x).negative <;> simp [UnpackedFloat.compare, hm]
  · rw [hx]
    simp [UnpackedFloat.compare, hm]
  · rw [hx]
    simp only [Binary.sign]
    cases (Binary.ofFloat x).negative <;> simp [UnpackedFloat.compare, hm.ne']

end Decimal

/-! ## Zeros at the end -/

namespace Locale

section Zeros

variable (least : Nat) (ds : List Char)

def spare : List Char :=
  ds.reverse.take (ds.length - least)

theorem length_spare : (spare least ds).length = ds.length - least := by
  rw [spare, List.length_take, List.length_reverse]
  omega

theorem length_zeros_le : ((spare least ds).takeWhile (· == '0')).length ≤ ds.length := by
  have h := (List.takeWhile_prefix (l := spare least ds) (· == '0')).length_le
  rw [length_spare] at h
  omega

/-- From the right, the digits that stay follow the zeros that are left out. -/
theorem reverse_eq_zeros_append :
    ds.reverse = (spare least ds).takeWhile (· == '0') ++ (trimZeros least ds).reverse := by
  have hfront : (spare least ds).takeWhile (· == '0') <+: ds.reverse :=
    (List.takeWhile_prefix _).trans (List.take_prefix _ _)
  have hstay : (trimZeros least ds).reverse =
      ds.reverse.drop ((spare least ds).takeWhile (· == '0')).length := by
    change (ds.take (ds.length - ((spare least ds).takeWhile (· == '0')).length)).reverse = _
    rw [List.reverse_take, Nat.sub_sub_self (length_zeros_le least ds)]
  rw [hstay, List.prefix_iff_eq_take.mp hfront, List.length_take,
    Nat.min_eq_left (length_zeros_le least ds |>.trans_eq List.length_reverse.symm),
    List.take_append_drop]

theorem trimZeros_append :
    ∃ zeros, ds = trimZeros least ds ++ List.replicate zeros '0' := by
  have hzeros : (spare least ds).takeWhile (· == '0') =
      List.replicate ((spare least ds).takeWhile (· == '0')).length '0' :=
    List.eq_replicate_of_mem fun c hc => beq_iff_eq.mp (List.mem_takeWhile_imp (p := (· == '0')) hc)
  refine ⟨((spare least ds).takeWhile (· == '0')).length, List.reverse_injective ?_⟩
  rw [List.reverse_append, List.reverse_replicate, ← hzeros]
  exact reverse_eq_zeros_append least ds

variable {least ds}

theorem least_le_length_trimZeros (h : least ≤ ds.length) :
    least ≤ (trimZeros least ds).length := by
  have hlength := congrArg List.length (reverse_eq_zeros_append least ds)
  have hzeros := (List.takeWhile_prefix (l := spare least ds) (· == '0')).length_le
  rw [List.length_append, List.length_reverse, List.length_reverse] at hlength
  rw [length_spare] at hzeros
  omega

/-- A zero stays at the end only where no digit may be left out. -/
theorem length_of_getLast?_trimZeros (h : least ≤ ds.length)
    (hlast : (trimZeros least ds).getLast? = some '0') :
    (trimZeros least ds).length = least := by
  have hsplit := reverse_eq_zeros_append least ds
  have hlength := congrArg List.length hsplit
  rw [List.length_append, List.length_reverse, List.length_reverse] at hlength
  -- what follows the zeros among the spare digits would be the first digit that stays
  have hrest : (spare least ds).dropWhile (· == '0') <+: (trimZeros least ds).reverse := by
    refine (List.prefix_append_right_inj ((spare least ds).takeWhile (· == '0'))).mp ?_
    rw [List.takeWhile_append_dropWhile, ← hsplit]
    exact List.take_prefix _ _
  have hnone : (spare least ds).dropWhile (· == '0') = [] := by
    cases hd : (spare least ds).dropWhile (· == '0') with
    | nil => rfl
    | cons c rest =>
      have hc := List.head?_dropWhile_not (· == '0') (spare least ds)
      rw [hd] at hc hrest
      obtain ⟨tail, htail⟩ := hrest
      rw [List.getLast?_eq_head?_reverse, ← htail, List.cons_append, List.head?_cons] at hlast
      rw [List.head?_cons, Option.some.inj hlast] at hc
      cases hc
  have hall := congrArg List.length
    (List.takeWhile_append_dropWhile (p := (· == '0')) (l := spare least ds))
  rw [hnone, List.append_nil, length_spare] at hall
  omega

end Zeros

/-! ## Places in their range -/

def clamp? (low high n : Nat) : Option Nat :=
  if low ≤ high then some (max low (min n high)) else none

section Parts

variable (l : Locale) (x : Float) (least most : Nat)

/-- The number of places is never brought between two numbers in the wrong order. -/
theorem clamp?_leastPlaces :
    clamp? (leastPlaces least) maxPlaces most = some (mostPlaces least most) := by
  have hle : leastPlaces least ≤ maxPlaces := Nat.min_le_right _ _
  rw [clamp?, if_pos hle, mostPlaces]
  congr 1
  omega

theorem leastPlaces_le_mostPlaces : leastPlaces least ≤ mostPlaces least most :=
  Nat.le_min.mpr ⟨Nat.le_max_right _ _, Nat.min_le_right _ _⟩

theorem length_fixed (b : Binary) (places : Nat) : (fixed b places).2.length = places := by
  rw [fixed_eq]
  dsimp only
  split_ifs with h
  · exact h.symm
  · exact Calendar.length_padded (Nat.pos_of_ne_zero h) (Nat.mod_lt _ (Nat.pow_pos (by decide)))

theorem length_fractionDigits_le :
    (fractionDigits x least most).length ≤ mostPlaces least most := by
  obtain ⟨zeros, h⟩ := trimZeros_append (leastPlaces least)
    (fixed (.ofFloat x) (mostPlaces least most)).2
  have hlength := congrArg List.length h
  rw [length_fixed, List.length_append] at hlength
  exact (Nat.le_add_right _ _).trans_eq hlength.symm

theorem least_le_length_fractionDigits :
    leastPlaces least ≤ (fractionDigits x least most).length := by
  refine least_le_length_trimZeros ?_
  rw [length_fixed]
  exact leastPlaces_le_mostPlaces least most

/-! ## Signs -/

theorem exists_wholeDigits :
    ∃ d rest, l.wholePart x least most = d :: rest ∧ d.isDigit = true := by
  obtain ⟨d, ds, hds⟩ := List.exists_cons_of_ne_nil (l := wholeDigits x least most)
    Nat.toDigits_ne_nil
  have hdigit : d.isDigit = true := isDigit_of_mem_digits (hds ▸ List.mem_cons_self)
  unfold wholePart
  rw [hds]
  split
  · exact ⟨d, _, rfl, hdigit⟩
  · exact ⟨d, _, rfl, hdigit⟩

theorem writesZero_of_mantissa (h : (Binary.ofFloat x).mantissa = 0) :
    writesZero x least most = true := by
  have hratio : (Binary.ofFloat x).ratio.1 = 0 := by
    unfold Binary.ratio
    rw [h]
    split
    · exact Nat.zero_mul _
    · rfl
  have hunits : unitsAt (.ofFloat x) (mostPlaces least most) = 0 := by
    rw [unitsAt, hratio, Nat.zero_mul, roundHalfEven]
    simp [ratio_pos]
  have hwhole : wholeDigits x least most = ['0'] := by
    rw [wholeDigits, hunits, Nat.zero_div]
    rfl
  have hfraction : ∀ c ∈ fractionDigits x least most, c = '0' := by
    intro c hc
    have hc := mem_of_mem_trimZeros hc
    rw [fixed_eq, hunits, Nat.zero_mod] at hc
    split at hc
    · cases hc
    · rcases List.mem_append.mp hc with hc | hc
      · exact List.eq_of_mem_replicate hc
      · exact List.mem_singleton.mp hc
  rw [writesZero, hwhole, Bool.and_eq_true]
  exact ⟨rfl, List.all_eq_true.mpr fun c hc => beq_iff_eq.mpr (hfraction c hc)⟩

/-- The minus is written for a number below zero, unless all its digits are zeros. -/
theorem signOf_eq (h : x ≠ Float.nan) :
    l.signOf x least most =
      if x < 0 ∧ writesZero x least most = false then l.minus.toList else [] := by
  refine if_congr ?_ rfl rfl
  rw [Bool.and_eq_true, Bool.not_eq_true', lt_zero_iff h, and_assoc]
  refine and_congr_right fun _ => ⟨fun hzero => ⟨fun hm => ?_, hzero⟩, And.right⟩
  rw [writesZero_of_mantissa x least most hm] at hzero
  cases hzero

theorem writesZero_eq_false_iff (hl : l.Clear) :
    writesZero x least most = false ↔
      ∃ c ∈ l.wholePart x least most ++ fractionDigits x least most,
        c.isDigit = true ∧ c ≠ '0' := by
  have hwhole : ∀ c, c.isDigit = true →
      (c ∈ l.wholePart x least most ↔ c ∈ wholeDigits x least most) := by
    intro c hc
    rw [← filter_wholePart l x least most hl.separator, List.mem_filter]
    exact (and_iff_left (bne_of_isDigit hc hl.separator)).symm
  have hdigits : ∀ c ∈ wholeDigits x least most ++ fractionDigits x least most,
      c.isDigit = true := by
    intro c hc
    rcases List.mem_append.mp hc with hc | hc
    · exact isDigit_of_mem_digits hc
    · exact (writes_writeNumber l x least most hl).fraction c hc
  rw [writesZero, ← List.all_append, List.all_eq_false]
  constructor
  · rintro ⟨c, hc, hne⟩
    have hdigit := hdigits c hc
    refine ⟨c, ?_, hdigit, fun h => hne (beq_iff_eq.mpr h)⟩
    rwa [List.mem_append, hwhole c hdigit, ← List.mem_append]
  · rintro ⟨c, hc, hdigit, hne⟩
    rw [List.mem_append, hwhole c hdigit, ← List.mem_append] at hc
    exact ⟨c, hc, fun h => hne (beq_iff_eq.mp h)⟩

end Parts

/-! ## Signs in a text -/

/-- The signs of a locale are told apart also by the characters of the minus. -/
theorem minus_resolve (name : String) :
    (resolve name).minus.toList ≠ [] ∧ (resolve name).decimal ∉ (resolve name).minus.toList := by
  have h : ∀ l ∈ table.map (·.1), l.minus.toList ≠ [] ∧ l.decimal ∉ l.minus.toList := by
    decide
  exact h _ (resolve_mem name)

namespace Writes

variable {l : Locale} {text : String} {sign whole fraction : List Char}
  (h : l.Writes text sign whole fraction)

include h

theorem mem_iff {c : Char} :
    c ∈ text.toList ↔ c ∈ sign ∨ c ∈ whole ∨ (fraction ≠ [] ∧ c = l.decimal) ∨ c ∈ fraction := by
  rw [h.text]
  cases fraction with
  | nil => simp
  | cons d ds => simp

theorem not_mem_sign {c : Char} (hc : c ∉ l.minus.toList) : c ∉ sign := by
  rcases h.sign with rfl | rfl
  · exact List.not_mem_nil
  · exact hc

theorem decimal_mem_iff (hminus : l.decimal ∉ l.minus.toList) :
    l.decimal ∈ text.toList ↔ fraction ≠ [] := by
  have hwhole : l.decimal ∉ whole := fun hmem =>
    (h.whole _ hmem).elim h.clear.ne fun hdigit => by rw [h.clear.decimal] at hdigit; cases hdigit
  have hfraction : l.decimal ∉ fraction := fun hmem => by
    have hdigit := h.fraction _ hmem
    rw [h.clear.decimal] at hdigit
    cases hdigit
  rw [h.mem_iff]
  simp [h.not_mem_sign hminus, hwhole, hfraction]

/-- Digits stand in the whole part and in the fraction only. -/
theorem exists_digit_iff :
    (∃ c ∈ text.toList, c.isDigit = true ∧ c ≠ '0') ↔
      ∃ c ∈ whole ++ fraction, c.isDigit = true ∧ c ≠ '0' := by
  refine exists_congr fun c => and_congr_left fun ⟨hdigit, _⟩ => ?_
  have hsign : c ∉ sign := h.not_mem_sign fun hmem => by
    rw [h.clear.minus c hmem] at hdigit
    cases hdigit
  have hdecimal : c ≠ l.decimal := by
    rintro rfl
    rw [h.clear.decimal] at hdigit
    cases hdigit
  rw [h.mem_iff, List.mem_append]
  simp [hsign, hdecimal]

/-- A text begins with the minus if that is its sign, because else it begins with a digit. -/
theorem minus_prefix_iff (hminus : l.minus.toList ≠ [])
    (hwhole : ∃ d rest, whole = d :: rest ∧ d.isDigit = true) :
    l.minus.toList <+: text.toList ↔ sign ≠ [] := by
  rw [h.text]
  rcases h.sign with rfl | rfl
  · refine iff_of_false (fun hfront => ?_) (not_not_intro rfl)
    obtain ⟨d, rest, rfl, hdigit⟩ := hwhole
    obtain ⟨c, cs, hcs⟩ := List.exists_cons_of_ne_nil hminus
    have hc := h.clear.minus c (hcs ▸ List.mem_cons_self)
    rw [hcs, List.nil_append, List.cons_append, List.cons_prefix_cons] at hfront
    rw [hfront.1, hdigit] at hc
    cases hc
  · exact iff_of_true ⟨_, (List.append_assoc _ _ _).symm⟩ hminus

end Writes

open Verdict.Action (allowedPlaces apply_text keptPlaces)

/-- A step of any two numbers of places gives a text.  Its fraction has no more digits than the
number is rounded to, and no fewer than are kept; zeros at the end are all that it lost, and it ends
with one only if it cannot lose it.  The decimal sign stands before a fraction only, and the minus
before a number below zero only of which a digit other than zero is written. -/
theorem text_places (kind : Kind) (locale : String) (tool : Tool) (name : Option String)
    (least most : Option UInt64) (n : Number) :
    ∃ rounded written sign whole fraction,
      clamp? (min (keptPlaces least) 20) 20 (allowedPlaces least most) = some rounded ∧
      (Action.text name least most).apply kind locale tool (.num n) = .str written ∧
      (resolve (name.getD locale)).Writes written sign whole fraction ∧
      min (keptPlaces least) 20 ≤ fraction.length ∧ fraction.length ≤ rounded ∧
      (∃ zeros, (fixed (.ofFloat n.toFloat) rounded).2 =
        fraction ++ List.replicate zeros '0') ∧
      (fraction.getLast? = some '0' → fraction.length = min (keptPlaces least) 20) ∧
      ((resolve (name.getD locale)).decimal ∈ written.toList ↔ fraction ≠ []) ∧
      ((resolve (name.getD locale)).minus.toList <+: written.toList ↔
        n.toFloat < 0 ∧ ∃ c ∈ written.toList, c.isDigit = true ∧ c ≠ '0') := by
  have hwrites := writes_writeNumber _ n.toFloat (keptPlaces least) (allowedPlaces least most)
    (clear_resolve (name.getD locale))
  obtain ⟨hminus, hdecimal⟩ := minus_resolve (name.getD locale)
  refine ⟨_, _, _, _, _, clamp?_leastPlaces _ _, apply_text kind locale tool name least most n,
    hwrites, least_le_length_fractionDigits _ _ _, length_fractionDigits_le _ _ _,
    trimZeros_append _ _, length_of_getLast?_trimZeros ?_, hwrites.decimal_mem_iff hdecimal, ?_⟩
  · rw [length_fixed]
    exact leastPlaces_le_mostPlaces _ _
  · rw [hwrites.minus_prefix_iff hminus (exists_wholeDigits _ _ _ _), hwrites.exists_digit_iff,
      ← writesZero_eq_false_iff _ _ _ _ hwrites.clear, signOf_eq _ _ _ _ n.toFloat_ne_nan]
    split_ifs with h
    · exact iff_of_true hminus h
    · exact iff_of_false (not_not_intro rfl) h

end Locale

end Verdict
