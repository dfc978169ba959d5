import Verdict.Proofs.Locale.Grouping
import Verdict.Step.Pipeline

/-!
# Numbers as text

A number is written with the digits of its nearest neighbour that has no more than the chosen number
of places, and its whole part is cut into the groups of the locale.  The groups are lost from
`2 ^ 64` on.
-/

namespace Verdict

open Decimal

namespace Locale

/-- How a number is written: a sign, a whole part of digits and separators and, behind the decimal
sign, a fraction of digits. -/
structure Writes (l : Locale) (text : String) (sign whole fraction : List Char) : Prop where
  clear : l.Clear
  text : text.toList = sign ++ whole ++ if fraction.isEmpty then [] else l.decimal :: fraction
  sign : sign = [] ∨ sign = l.minus.toList
  whole : ∀ c ∈ whole, c = l.separator ∨ c.isDigit = true
  fraction : ∀ c ∈ fraction, c.isDigit = true

theorem mem_of_mem_trimZeros {least : Nat} {ds : List Char} {c : Char}
    (h : c ∈ trimZeros least ds) : c ∈ ds :=
  List.mem_of_mem_take h

theorem isDigit_of_mem_padded {width n : Nat} {c : Char} (h : c ∈ padded width n) :
    c.isDigit = true := by
  rcases List.mem_append.mp h with hzero | hdigit
  · rw [List.eq_of_mem_replicate hzero]
    rfl
  · exact isDigit_of_mem_digits hdigit

section Parts

variable (l : Locale) (x : Float) (least most : Nat)

def leastPlaces : Nat :=
  min least maxPlaces

def mostPlaces : Nat :=
  min (max most (leastPlaces least)) maxPlaces

def wholeDigits : List Char :=
  digits (unitsAt (.ofFloat x) (mostPlaces least most) / 10 ^ mostPlaces least most)

def fractionDigits : List Char :=
  trimZeros (leastPlaces least) (fixed (.ofFloat x) (mostPlaces least most)).2

def writesZero : Bool :=
  (wholeDigits x least most).all (· == '0') && (fractionDigits x least most).all (· == '0')

def signOf : List Char :=
  if (Binary.ofFloat x).negative && !writesZero x least most then l.minus.toList else []

def wholePart : List Char :=
  if unitsAt (.ofFloat x) (mostPlaces least most) / 10 ^ mostPlaces least most < groupingLimit then
    l.inGroups (wholeDigits x least most)
  else wholeDigits x least most

theorem writes_writeNumber (hl : l.Clear) :
    l.Writes (l.writeNumber x least most) (l.signOf x least most) (l.wholePart x least most)
      (fractionDigits x least most) where
  clear := hl
  text := by
    unfold writeNumber
    dsimp only
    rw [String.toList_ofList, fixed_eq]
    dsimp only
    rw [ofDigitChars_digits, grouped_eq]
    rfl
  sign := by
    unfold signOf
    split
    · exact .inr rfl
    · exact .inl rfl
  whole c hc := by
    unfold wholePart at hc
    split at hc
    · exact (mem_separate hc).imp_right isDigit_of_mem_digits
    · exact .inr (isDigit_of_mem_digits hc)
  fraction c hc := by
    have hpadded : c ∈ (fixed (.ofFloat x) (mostPlaces least most)).2 := mem_of_mem_trimZeros hc
    rw [fixed_eq] at hpadded
    split at hpadded
    · cases hpadded
    · exact isDigit_of_mem_padded hpadded

theorem filter_wholePart (hsep : l.separator.isDigit = false) :
    (l.wholePart x least most).filter (· != l.separator) = wholeDigits x least most := by
  have hmem : l.separator ∉ wholeDigits x least most := by
    intro h
    rw [isDigit_of_mem_digits h] at hsep
    cases hsep
  unfold wholePart
  split
  · exact filter_separate hmem
  · exact List.filter_eq_self.mpr fun c hc => bne_iff_ne.mpr fun heq => hmem (heq ▸ hc)

end Parts

end Locale

namespace Action

open Verdict.Locale

section Places

variable (least most : Option UInt64)

/-- The number of places that a step asks to keep; by default none. -/
def keptPlaces : Nat :=
  (least.map UInt64.toNat).getD 0

def allowedPlaces : Nat :=
  (most.map UInt64.toNat).getD (Nat.max 3 (keptPlaces least))

def places : Nat :=
  mostPlaces (keptPlaces least) (allowedPlaces least most)

/-- A number of units of the last place that a step writes for a double. -/
def RoundsTo (b : Binary) (units : Nat) : Prop :=
  IsNearest (b.mantissa * 2 ^ b.exponent * 10 ^ places least most) units

end Places

theorem apply_text (kind : Kind) (locale : String) (tool : Tool) (name : Option String)
    (least most : Option UInt64) (n : Number) :
    (text name least most).apply kind locale tool (.num n) =
      .str ((resolve (name.getD locale)).writeNumber n.toFloat (keptPlaces least)
        (allowedPlaces least most)) := by
  cases tool <;> rfl

/-- A number is written with the digits of its size, rounded to the places of the step.  Before the
fraction they are cut where the grouping of the locale says if they are those of a number of 64
bits, and else not at all; and they are what is left without the separators. -/
theorem text_grouped (kind : Kind) (locale : String) (tool : Tool) (name : Option String)
    (least most : Option UInt64) (n : Number) :
    ∃ written sign whole fraction units,
      (text name least most).apply kind locale tool (.num n) = .str written ∧
      (resolve (name.getD locale)).Writes written sign whole fraction ∧
      RoundsTo least most (.ofFloat n.toFloat) units ∧
      (units / 10 ^ places least most < 2 ^ 64 →
        whole = (resolve (name.getD locale)).inGroups (digits (units / 10 ^ places least most))) ∧
      (2 ^ 64 ≤ units / 10 ^ places least most →
        whole = digits (units / 10 ^ places least most)) ∧
      whole.filter (· != (resolve (name.getD locale)).separator) =
        digits (units / 10 ^ places least most) := by
  have hclear := clear_resolve (name.getD locale)
  refine ⟨_, _, _, _, unitsAt (.ofFloat n.toFloat) (places least most),
    apply_text kind locale tool name least most n,
    writes_writeNumber _ n.toFloat (keptPlaces least) (allowedPlaces least most) hclear,
    isNearest_unitsAt _ _, fun h => if_pos h, fun h => if_neg (not_lt.mpr h), ?_⟩
  exact filter_wholePart _ n.toFloat _ _ hclear.separator

/-- Seven digits of a number, cut as in Hindi. -/
theorem text_grouped_hindi :
    ∃ written sign fraction units,
      (text (some "hi") none none).apply .primitive "en-US" .none (.ofInt 1234567) =
        .str written ∧
      units / 10 ^ places none none < 2 ^ 64 ∧
      (resolve "hi").Writes written sign "12,34,567".toList fraction := by
  obtain ⟨written, sign, whole, fraction, units, hwritten, hwrites, hnearest, hgroups, -⟩ :=
    text_grouped .primitive "en-US" .none (some "hi") none none (.int 1234567)
  have hbinary : Binary.ofFloat (Number.int 1234567).toFloat =
      ⟨false, 1234567 * 2 ^ 32, -32⟩ := by
    decide
  have hplaces : places none none = 3 := rfl
  obtain rfl : units = 1234567000 := by
    have hnear := hnearest.near
    rw [hbinary, hplaces, abs_le] at hnear
    norm_num at hnear
    have hlow : (units : ℚ) < 1234567000 + 1 := by linarith
    have hhigh : (1234567000 : ℚ) < units + 1 := by linarith
    norm_cast at hlow hhigh
    omega
  have hlt : 1234567000 / 10 ^ places none none < 2 ^ 64 := by decide
  have hcut : whole = "12,34,567".toList := (hgroups hlt).trans (by decide)
  exact ⟨written, sign, fraction, 1234567000, hwritten, hlt, hcut ▸ hwrites⟩

/-- From `2 ^ 64` on the groups are missing, although the grouping of the locale cuts the digits. -/
theorem groups_lost :
    (text (some "en") none none).apply .primitive "en-US" .none
        (.num (.float 1e20 (by decide))) = .str "100000000000000000000" ∧
      (resolve "en").inGroups (digits (10 ^ 20)) =
        "100,000,000,000,000,000,000".toList := by
  refine ⟨?_, by decide⟩
  rw [apply_text]
  exact congrArg Json.str (by decide)

end Action

end Verdict
