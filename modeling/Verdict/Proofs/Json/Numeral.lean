import Verdict.Json.Document
import Verdict.Json.Text
import Verdict.Proofs.Decimal.Nearest
import Verdict.Proofs.Decimal.Reading
import Verdict.Proofs.Text

/-!
# Numbers are read again

A number is a sign, digits without a superfluous zero in front, and perhaps a fraction and an
exponent.  Integers of 64 bits are read from their texts as what they were.  A double may come back
as a neighbour, since its digits are rounded to a double before they are scaled; with few digits
both are exact, and it comes back as what it was.
-/

namespace Verdict

open Decimal

/-! ## Digits in front -/

namespace Decimal

theorem head?_digits {n : Nat} (hn : n ≠ 0) : (digits n).head? ≠ some '0' := by
  induction n using Nat.strongRecOn with
  | ind n ih =>
    by_cases hlt : n < 10
    · rw [digits, Nat.toDigits_of_lt_base hlt]
      interval_cases n <;> first | exact absurd rfl hn | decide
    · have hrest := ih (n / 10) (by omega) (by omega)
      rw [digits, Nat.toDigits_of_base_le (by decide) (not_lt.mp hlt)]
      rwa [List.head?_append_of_ne_nil _ Nat.toDigits_ne_nil]

end Decimal

namespace Document

/-! ## Spellings -/

/-- What may follow a value: nothing, or what separates or ends values. -/
def Ends (r : List Char) : Prop :=
  ∀ c ∈ r.head?, c = ',' ∨ c = ']' ∨ c = '}'

/-- Digits as a number begins with them. -/
structure Leads (ds : List Char) : Prop where
  ne_nil : ds ≠ []
  digit : ∀ c ∈ ds, c.isDigit = true
  zero : ds.head? = some '0' → ds = ['0']

def pointedDigits (ds : List Char) : List Char :=
  if ds.isEmpty then [] else '.' :: ds

def markedExponent : Option Int → List Char
  | none => []
  | some e => 'e' :: signedDigits e

theorem leads_digits (n : Nat) : Leads (digits n) where
  ne_nil := Nat.toDigits_ne_nil
  digit _ hc := isDigit_of_mem_digits hc
  zero h := by
    by_contra hne
    rcases eq_or_ne n 0 with rfl | hn
    · exact hne rfl
    · exact head?_digits hn h

theorem span_digits {ds r : List Char} (hds : ∀ c ∈ ds, c.isDigit = true)
    (hr : ∀ c ∈ r.head?, c.isDigit = false) : (ds ++ r).span Decimal.isDigit = (ds, r) := by
  rw [List.span_eq_takeWhile_dropWhile, Prod.mk.injEq, Text.span_eq_iff]
  refine ⟨rfl, fun c hc => ?_, fun c hc => ?_⟩
  · rw [isDigit_eq, hds c hc]
  · rw [isDigit_eq, hr c hc]

variable {r : List Char}

theorem Ends.not_digit (hr : Ends r) : ∀ c ∈ r.head?, c.isDigit = false := by
  intro c hc
  rcases hr c hc with rfl | rfl | rfl <;> rfl

theorem wholeDigits_append {whole : List Char} (hwhole : Leads whole)
    (hr : ∀ c ∈ r.head?, c.isDigit = false) : wholeDigits (whole ++ r) = some (whole, r) := by
  unfold wholeDigits
  rw [span_digits hwhole.digit hr]
  split
  · rename_i h
    exact absurd (congrArg Prod.fst h) hwhole.ne_nil
  · rename_i h
    have hlong := congrArg Prod.fst h
    dsimp only at hlong
    rw [hlong] at hwhole
    cases hwhole.zero rfl
  · rename_i h
    rw [← h]

theorem fractionDigits_append {fraction : List Char} (hfraction : ∀ c ∈ fraction, c.isDigit = true)
    (hr : ∀ c ∈ r.head?, c.isDigit = false ∧ c ≠ '.') :
    fractionDigits (pointedDigits fraction ++ r) = some (fraction, r) := by
  unfold pointedDigits
  cases fraction with
  | nil =>
    rw [List.isEmpty_nil, if_pos rfl, List.nil_append]
    unfold fractionDigits
    split
    · exact absurd rfl (hr '.' rfl).2
    · rfl
  | cons d ds =>
    rw [List.isEmpty_cons, if_neg (by decide), List.cons_append, fractionDigits,
      span_digits hfraction fun c hc => (hr c hc).1]

theorem exponentDigits_append (exponent : Option Int) (hr : Ends r) :
    exponentDigits (markedExponent exponent ++ r) = some (exponent, r) := by
  cases exponent with
  | none =>
    cases r with
    | nil => rfl
    | cons c r =>
      rw [markedExponent, List.nil_append, exponentDigits]
      rcases hr c rfl with rfl | rfl | rfl <;> rfl
  | some e =>
    have hdigits : ∀ c ∈ digits e.natAbs, c.isDigit = true := fun c hc => isDigit_of_mem_digits hc
    have hspan := span_digits hdigits hr.not_digit
    have hnat : natOf (digits e.natAbs) = e.natAbs := ofDigitChars_digits _
    obtain ⟨d, ds, hds⟩ := List.exists_cons_of_ne_nil (l := digits e.natAbs) Nat.toDigits_ne_nil
    by_cases he : e < 0
    · have htext : markedExponent (some e) ++ r = 'e' :: '-' :: (digits e.natAbs ++ r) := by
        rw [markedExponent, signedDigits, if_pos he]
        rfl
      rw [htext, exponentDigits, if_pos (by decide), splitSign]
      simp only [hspan]
      rw [hds] at hnat ⊢
      simp only [hnat, if_true]
      congr 3
      omega
    · have htext : markedExponent (some e) ++ r = 'e' :: '+' :: (digits e.natAbs ++ r) := by
        rw [markedExponent, signedDigits, if_neg he]
        rfl
      rw [htext, exponentDigits, if_pos (by decide), splitSign]
      simp only [hspan]
      rw [hds] at hnat ⊢
      simp only [hnat, Bool.false_eq_true, if_false]
      congr 3
      omega

/-! ## Reading -/

/-- The parts of the text of a number. -/
structure Spelling where
  negative : Bool
  whole : List Char
  fraction : List Char
  exponent : Option Int
  leads : Leads whole
  digit : ∀ c ∈ fraction, c.isDigit = true

namespace Spelling

def unsigned (s : Spelling) : List Char :=
  s.whole ++ (pointedDigits s.fraction ++ markedExponent s.exponent)

def chars (s : Spelling) : List Char :=
  (if s.negative then ['-'] else []) ++ s.unsigned

/-- What is read from the parts. -/
def value (s : Spelling) : Option Number :=
  let double := doubleOf s.whole s.fraction (s.exponent.getD 0)
  let asDouble := finiteNumber (if s.negative then -double else double)
  if s.fraction.isEmpty && s.exponent.isNone then
    wholeNumber s.negative (natOf s.whole) <|> asDouble
  else asDouble

theorem readParts_append (s : Spelling) (hr : Ends r) :
    (do
      let (whole, afterWhole) ← wholeDigits (s.unsigned ++ r)
      let (fraction, afterFraction) ← fractionDigits afterWhole
      let (exponent, rest) ← exponentDigits afterFraction
      let double := doubleOf whole fraction (exponent.getD 0)
      let asDouble := finiteNumber (if s.negative then -double else double)
      let value := if fraction.isEmpty && exponent.isNone then
          wholeNumber s.negative (Decimal.natOf whole) <|> asDouble
        else asDouble
      return (number value, rest)) = some (number s.value, r) := by
  have hmark : ∀ c ∈ (markedExponent s.exponent ++ r).head?, c.isDigit = false ∧ c ≠ '.' := by
    intro c hc
    cases hexponent : s.exponent with
    | none =>
      rw [hexponent] at hc
      rcases hr c hc with rfl | rfl | rfl <;> exact ⟨rfl, by decide⟩
    | some e =>
      rw [hexponent] at hc
      cases hc
      exact ⟨rfl, by decide⟩
  have hpoint : ∀ c ∈ (pointedDigits s.fraction ++ (markedExponent s.exponent ++ r)).head?,
      c.isDigit = false := by
    intro c hc
    cases hfraction : s.fraction with
    | nil =>
      rw [hfraction] at hc
      exact (hmark c hc).1
    | cons d ds =>
      rw [hfraction] at hc
      cases hc
      rfl
  rw [unsigned, List.append_assoc, List.append_assoc, wholeDigits_append s.leads hpoint,
    Option.bind_eq_bind, Option.bind_some]
  dsimp only
  rw [fractionDigits_append s.digit hmark, Option.bind_eq_bind, Option.bind_some]
  dsimp only
  rw [exponentDigits_append s.exponent hr]
  rfl

theorem readNumber_append (s : Spelling) (hr : Ends r) :
    readNumber (s.chars ++ r) = some (number s.value, r) := by
  have hparts := s.readParts_append hr
  rw [chars]
  cases hsign : s.negative with
  | true =>
    rw [hsign] at hparts
    exact hparts
  | false =>
    rw [hsign] at hparts
    obtain ⟨d, ds, hwhole⟩ := List.exists_cons_of_ne_nil s.leads.ne_nil
    have hd : d ≠ '-' := by
      rintro rfl
      cases s.leads.digit '-' (hwhole ▸ List.mem_cons_self)
    rw [unsigned, hwhole] at hparts ⊢
    change readNumber (d :: (ds ++ _ ++ r)) = _
    unfold readNumber
    split
    rename_i h
    split at h
    · rename_i hminus
      exact absurd (List.cons.inj hminus).1 hd
    · cases h
      exact hparts

end Spelling

/-! ## Texts of doubles -/

theorem leads_positional {s : Scaled} (hs : s.coefficient ≠ 0) : Leads s.positional.1 := by
  have hdigit : ∀ c ∈ s.positional.1, c.isDigit = true :=
    fun c hc => Scaled.isDigit_of_mem_positional (.inl hc)
  have hhead := head?_digits hs
  obtain ⟨d, ds, hds⟩ := List.exists_cons_of_ne_nil (l := digits s.coefficient) Nat.toDigits_ne_nil
  obtain ⟨c, e⟩ := s
  unfold Scaled.positional at hdigit ⊢
  dsimp only at hdigit hhead hds ⊢
  cases e with
  | ofNat e =>
    dsimp only at hdigit ⊢
    rw [hds] at hdigit hhead ⊢
    exact ⟨List.cons_ne_nil _ _, hdigit, fun h => absurd h hhead⟩
  | negSucc e =>
    dsimp only at hdigit ⊢
    split
    · exact ⟨List.cons_ne_nil _ _, List.forall_mem_singleton.mpr rfl, fun _ => rfl⟩
    · rename_i hlong
      rw [if_neg hlong] at hdigit
      dsimp only at hdigit ⊢
      obtain ⟨k, hk⟩ : ∃ k, (digits c).length - (e + 1) = k + 1 :=
        ⟨(digits c).length - (e + 1) - 1, by omega⟩
      rw [hk, hds, List.take_succ_cons] at hdigit ⊢
      rw [hds] at hhead
      exact ⟨List.cons_ne_nil _ _, hdigit, fun h => absurd h hhead⟩

theorem magnitudeText_parts {b : Binary} (hb : b.Normal) :
    ∃ whole fraction exponent, Leads whole ∧ (∀ c ∈ fraction, c.isDigit = true) ∧
      magnitudeText b = whole ++ (pointedDigits fraction ++ markedExponent exponent) := by
  have hzero : ∀ c ∈ ['0'], c.isDigit = true := List.forall_mem_singleton.mpr rfl
  unfold magnitudeText
  dsimp only
  by_cases hm : b.mantissa = 0
  · exact ⟨['0'], ['0'], none, leads_digits 0, hzero, if_pos hm⟩
  rw [if_neg hm]
  have hcoefficient : (shortest .even b).trim.coefficient ≠ 0 := by
    intro h
    have hpos : 0 < (shortest .even b).value := value_shortest_pos hb hm
    rw [← Scaled.value_trim, Scaled.value, h, Nat.cast_zero, zero_mul] at hpos
    exact absurd hpos (lt_irrefl 0)
  generalize (shortest .even b).trim = s at hcoefficient ⊢
  have hwhole := leads_positional hcoefficient
  split_ifs with hplain hempty
  · exact ⟨s.positional.1, ['0'], none, hwhole, hzero, rfl⟩
  · refine ⟨s.positional.1, s.positional.2, none, hwhole,
      fun c hc => Scaled.isDigit_of_mem_positional (.inr hc), ?_⟩
    rw [pointedDigits, if_neg hempty, markedExponent, List.append_nil]
  · obtain ⟨d, ds, hds⟩ := List.exists_cons_of_ne_nil (l := digits s.coefficient)
      Nat.toDigits_ne_nil
    have hdigit : ∀ c ∈ d :: ds, c.isDigit = true := fun c hc => isDigit_of_mem_digits (hds ▸ hc)
    rw [hds]
    refine ⟨[d], ds, some s.magnitude, ?_, fun c hc => hdigit c (List.mem_cons_of_mem d hc), ?_⟩
    · exact ⟨List.cons_ne_nil _ _, List.forall_mem_singleton.mpr (hdigit d List.mem_cons_self),
        fun h => congrArg (· :: []) (Option.some.inj h)⟩
    · cases ds <;> rfl

theorem Spelling.valueOf_unsigned (s : Spelling) :
    valueOf s.unsigned =
      natOf (s.whole ++ s.fraction) * 10 ^ (s.exponent.getD 0 - s.fraction.length) := by
  have hwritten : ∀ c ∈ s.whole ++ pointedDigits s.fraction, (c != 'e') = true := by
    intro c hc
    rcases List.mem_append.mp hc with hc | hc
    · exact bne_of_isDigit (s.leads.digit c hc) rfl
    · have hdigit := s.digit
      cases hfraction : s.fraction with
      | nil =>
        rw [hfraction] at hc
        cases hc
      | cons d ds =>
        rw [hfraction] at hc hdigit
        rcases List.mem_cons.mp hc with rfl | hc
        · rfl
        · exact bne_of_isDigit (hdigit c hc) rfl
  have hpoint : ∀ c ∈ s.whole, (c != '.') = true :=
    fun c hc => bne_of_isDigit (s.leads.digit c hc) rfl
  have htake : (markedExponent s.exponent).takeWhile (· != 'e') = [] := by
    cases s.exponent <;> rfl
  have hexponent : exponentValue (((markedExponent s.exponent).dropWhile (· != 'e')).drop 1) =
      s.exponent.getD 0 := by
    cases s.exponent with
    | none => rfl
    | some e => exact exponentValue_signedDigits e
  have hbefore : (pointedDigits s.fraction).takeWhile (· != '.') = [] := by
    cases s.fraction <;> rfl
  have hafter : ((pointedDigits s.fraction).dropWhile (· != '.')).drop 1 = s.fraction := by
    cases s.fraction <;> rfl
  unfold valueOf unsigned
  dsimp only
  rw [← List.append_assoc, List.takeWhile_append_of_pos hwritten,
    List.dropWhile_append_of_pos hwritten, htake, hexponent, List.append_nil,
    List.takeWhile_append_of_pos hpoint, List.dropWhile_append_of_pos hpoint, hbefore, hafter,
    List.append_nil]
  rfl

/-! ## Few digits -/

theorem le_ofDigitChars (ds : List Char) (n : Nat) : n ≤ Nat.ofDigitChars 10 ds n := by
  rw [Nat.ofDigitChars_eq_ofDigitChars_zero]
  exact (Nat.le_mul_of_pos_left _ (by positivity)).trans (Nat.le_add_right _ _)

theorem appendDigits_of_lt {ds : List Char} {n : Nat}
    (h : Nat.ofDigitChars 10 ds n < Word.unsignedLimit) :
    appendDigits n ds = (Nat.ofDigitChars 10 ds n, 0) := by
  induction ds generalizing n with
  | nil => rfl
  | cons c cs ih =>
    rw [Nat.ofDigitChars_cons] at h ⊢
    rw [appendDigits, if_pos ((le_ofDigitChars cs _).trans_lt h)]
    exact ih h

theorem powerOfTen_eq : ∀ k (h : k < Float.exactlyRepresentablePowersOfTen.size),
    powerOfTen k = Float.exactlyRepresentablePowersOfTen[k] := by
  decide

theorem scaled_eq_ite {e : Int} (he : e.natAbs ≤ mostPower) (x : Float) :
    scaled x e = if e < 0 then x / powerOfTen e.natAbs else x * powerOfTen e.natAbs := by
  have hmost : mostPower = 308 := rfl
  have hnone : (e.natAbs - 1) / mostPower = 0 := Nat.div_eq_of_lt (by omega)
  rw [scaled, hnone, if_pos he]
  rfl

theorem toFloat_eq_ofScientific {n : Nat} {e : Int} (hzero : n ≠ 0) (hn : n < 2 ^ 53)
    (he : e.natAbs ≤ 22) :
    Decimal.toFloat n e = Float.ofScientific n (decide (e < 0)) e.natAbs := by
  have hlength : (digits n).length ≤ 53 := by
    refine (Nat.length_toDigits_le_iff (by decide) (by decide)).mpr ?_
    exact hn.trans (by decide)
  rw [Decimal.toFloat, if_neg hzero]
  dsimp only
  rw [if_neg (by omega), if_neg (by omega)]

theorem scaled_zero {e : Int} (he : e.natAbs ≤ 22) : scaled (UInt64.ofNat 0).toFloat e = 0 := by
  have hall : ∀ k ≤ 22, (0 : Float) / powerOfTen k = 0 ∧ (0 : Float) * powerOfTen k = 0 := by
    decide
  have hmost : mostPower = 308 := rfl
  rw [scaled_eq_ite (by omega)]
  split
  · exact (hall _ he).1
  · exact (hall _ he).2

/-- Both the digits and the power of ten are exact, so only their product or quotient is rounded. -/
theorem scaled_of_short {n : Nat} {e : Int} (hn : n < 2 ^ 53) (he : e.natAbs ≤ 22) :
    scaled (UInt64.ofNat n).toFloat e = Decimal.toFloat n e := by
  rcases eq_or_ne n 0 with rfl | hzero
  · rw [scaled_zero he]
    rfl
  · have hsize : e.natAbs < Float.exactlyRepresentablePowersOfTen.size := Nat.lt_succ_of_le he
    have hmost : mostPower = 308 := rfl
    rw [scaled_eq_ite (by omega), toFloat_eq_ofScientific hzero hn he, powerOfTen_eq _ hsize]
    unfold Float.ofScientific
    rw [dif_pos ⟨hn, he⟩]
    exact if_congr decide_eq_true_iff.symm rfl rfl

/-- A decimal of few digits and a small power of ten is read as the nearest double. -/
theorem doubleOf_of_short {whole fraction : List Char} {e : Int}
    (hdigits : natOf (whole ++ fraction) < 2 ^ 53) (hpower : (e - fraction.length).natAbs ≤ 22) :
    doubleOf whole fraction e =
      Decimal.toFloat (natOf (whole ++ fraction)) (e - fraction.length) := by
  have hall : natOf (whole ++ fraction) =
      Nat.ofDigitChars 10 fraction (Nat.ofDigitChars 10 whole 0) :=
    Nat.ofDigitChars_append ..
  rw [hall] at hdigits ⊢
  have hfraction := appendDigits_of_lt (hdigits.trans (by decide))
  have hwhole : appendDigits 0 whole = (Nat.ofDigitChars 10 whole 0, 0) :=
    appendDigits_of_lt ((le_ofDigitChars _ _).trans_lt (hdigits.trans (by decide)))
  rw [doubleOf, hwhole]
  dsimp only
  rw [hfraction]
  dsimp only
  rw [Nat.sub_zero, Nat.cast_zero, add_zero]
  exact scaled_of_short hdigits hpower

/-! ## Numbers are read again -/

/-- What the text of a number is read as: none for a number beyond the doubles. -/
def reread (n : Number) : Option Number :=
  match readNumber n.text.toList with
  | some (number m, _) => m
  | _ => none

/-- A whole number without a fraction and an exponent. -/
def Spelling.ofDigits (negative : Bool) (m : Nat) : Spelling :=
  ⟨negative, digits m, [], none, leads_digits m, List.forall_mem_nil _⟩

theorem Spelling.value_ofDigits {negative : Bool} {m : Nat} {n : Number}
    (h : wholeNumber negative m = some n) : (ofDigits negative m).value = some n := by
  have hnat : natOf (digits m) = m := ofDigitChars_digits m
  rw [value, ofDigits, List.isEmpty_nil, Option.isNone_none, Bool.and_true, if_pos rfl, hnat, h]
  rfl

theorem toList_text_int (n : Int) :
    (Number.int n).text.toList = (Spelling.ofDigits (decide (n < 0)) n.natAbs).chars := by
  cases n with
  | ofNat m => exact Nat.toList_repr.trans (List.append_nil _).symm
  | negSucc m =>
    change ("-" ++ Nat.repr (m + 1)).toList = _
    rw [String.toList_append, Nat.toList_repr, decide_eq_true (Int.negSucc_lt_zero m)]
    exact (congrArg ('-' :: ·) (List.append_nil (digits (m + 1)))).symm

theorem exists_spelling (n : Number) : ∃ s : Spelling, n.text.toList = s.chars := by
  cases n with
  | int n => exact ⟨_, toList_text_int n⟩
  | float x finite =>
    obtain ⟨whole, fraction, exponent, hwhole, hfraction, htext⟩ :=
      magnitudeText_parts (Binary.normal_ofFloat x)
    exact ⟨⟨(Binary.ofFloat x).negative, whole, fraction, exponent, hwhole, hfraction⟩,
      (toList_floatText x).trans (congrArg _ htext)⟩

theorem reread_eq {n : Number} {s : Spelling} (h : n.text.toList = s.chars) :
    reread n = s.value := by
  have hread := s.readNumber_append (r := []) nofun
  rw [List.append_nil] at hread
  rw [reread, h, hread]

theorem readNumber_text (n : Number) (hr : Ends r) :
    readNumber (n.text.toList ++ r) = some (number (reread n), r) := by
  obtain ⟨s, hs⟩ := exists_spelling n
  rw [reread_eq hs, hs]
  exact s.readNumber_append hr

/-- Integers of 64 bits are read again. -/
theorem reread_int {n : Int} (hlow : -2 ^ 63 ≤ n) (hhigh : n < 2 ^ 64) :
    reread (.int n) = some (.int n) := by
  rw [reread_eq (toList_text_int n)]
  apply Spelling.value_ofDigits
  cases n with
  | ofNat m =>
    have hlt : m < Word.unsignedLimit := by
      rw [Int.ofNat_eq_natCast] at hhigh
      change m < 2 ^ 64
      omega
    exact if_pos hlt
  | negSucc m =>
    have hle : ¬(m + 1 = 0 ∨ Word.signedLimit < m + 1) := by
      change ¬(m + 1 = 0 ∨ 2 ^ 63 < m + 1)
      omega
    rw [decide_eq_true (Int.negSucc_lt_zero m)]
    exact if_neg hle

theorem reread_float_of_short {x : Float} (finite : x.isFinite = true) {s : Spelling}
    (hsign : s.negative = (Binary.ofFloat x).negative)
    (htext : s.unsigned = magnitudeText (.ofFloat x))
    (hwhole : (s.fraction.isEmpty && s.exponent.isNone) = false)
    (hdigits : natOf (s.whole ++ s.fraction) < 2 ^ 53)
    (hpower : (s.exponent.getD 0 - s.fraction.length).natAbs ≤ 22) :
    reread (.float x finite) = some (.float x finite) := by
  have hchars : (Number.float x finite).text.toList = s.chars := by
    rw [Spelling.chars, hsign, htext]
    exact toList_floatText x
  have hvalue := s.valueOf_unsigned
  rw [htext, valueOf_magnitudeText] at hvalue
  rw [reread_eq hchars, Spelling.value, hwhole, if_neg (by decide),
    doubleOf_of_short hdigits hpower, hsign, toFloat_of_value finite hvalue.symm, finiteNumber,
    dif_pos finite]

example : reread (.float 51.248178375505404 rfl) = some (.float 51.24817837550541 rfl) := by
  decide +kernel

end Document

end Verdict
