import Verdict.Calendar.Text
import Verdict.Proofs.Calendar.Day
import Verdict.Proofs.Decimal.Reading
import Verdict.Proofs.Decimal.Text
import Verdict.Proofs.Text

/-!
# Written dates are read back

An instant is written with its year in four digits, or with a sign and as many digits as it takes.
Written with four digits it is read back as itself.  With a sign it is not read at all: the standard
form has no signs, and the forms that have them do not end in a `Z`.
-/

namespace Verdict

open Calendar

namespace Instant

def year (i : Instant) : Int :=
  (dateOf i.day).1

/-- The year is written with four digits and without a sign. -/
def InFourDigits (i : Instant) : Prop :=
  0 ≤ i.year ∧ i.year ≤ 9999

instance (i : Instant) : Decidable i.InFourDigits :=
  inferInstanceAs (Decidable (_ ∧ _))

/-- A leap second ends a minute. -/
def Timed (i : Instant) : Prop :=
  i.inLeapSecond = true → i.second % 60 = 59

theorem ofParts?_self (i : Instant) : ofParts? i.day i.second i.nano = some i :=
  dif_pos ⟨⟨i.first_le, i.le_last⟩, i.second_lt, i.nano_lt⟩

end Instant

namespace Calendar

open Decimal Text

/-! ## Padded numbers -/

theorem ofDigitChars_padded (width n : Nat) : natOf (padded width n) = n :=
  (ofDigitChars_zeros_append (width - (digits n).length) (digits n)).trans (ofDigitChars_digits n)

theorem isDigit_of_mem_padded {width n : Nat} {c : Char} (h : c ∈ padded width n) :
    isDigit c = true := by
  rw [isDigit_eq]
  rcases List.mem_append.mp h with h | h
  · rw [List.eq_of_mem_replicate h]
    rfl
  · exact isDigit_of_mem_digits h

theorem length_padded {width n : Nat} (hwidth : 0 < width) (h : n < 10 ^ width) :
    (padded width n).length = width := by
  have hdigits : (digits n).length ≤ width :=
    (Nat.length_toDigits_le_iff (by decide) hwidth).mpr h
  rw [padded, List.length_append, List.length_replicate]
  omega

/-- A run of digits in front counts as far as a number may have digits. -/
theorem takeWhile_padded {width n : Nat} (rest : List Char) :
    (padded width n ++ rest).takeWhile isDigit = padded width n ++ rest.takeWhile isDigit :=
  List.takeWhile_append_of_pos fun _ hc => isDigit_of_mem_padded hc

theorem number_padded {width n : Nat} (hwidth : 0 < width ∧ width ≤ 18) (h : n < 10 ^ width)
    (rest : List Char) :
    number width (some width) (padded width n ++ rest) = some ((n : Int), rest) := by
  have hlength := length_padded hwidth.1 h
  have hrun : ((padded width n ++ rest).takeWhile isDigit).take width = padded width n := by
    rw [takeWhile_padded]
    exact List.take_left' hlength
  have hlimit : n < Word.signedLimit :=
    Nat.lt_of_lt_of_le h ((Nat.pow_le_pow_right (by decide) hwidth.2).trans (by decide))
  simp only [number, hrun]
  rw [if_neg (by rw [hlength, ofDigitChars_padded]; omega), ofDigitChars_padded, hlength]
  rw [List.drop_left' hlength]

theorem fraction_fractionText {nano : Nat} (h : nano < nanosPerSecond) :
    fraction (fractionText nano ++ ['Z']) = some (nano, ['Z']) := by
  have hpoint : ∀ {width n : Nat}, 0 < width → width ≤ 9 → n < 10 ^ width →
      fraction ('.' :: padded width n ++ ['Z']) = some (n * tenTo (9 - width), ['Z']) := by
    intro width n hpos hnine hn
    have hlength := length_padded hpos hn
    have hrun : (padded width n ++ ['Z']).takeWhile isDigit = padded width n := by
      rw [takeWhile_padded]
      exact List.append_nil _
    have hne : (padded width n).isEmpty = false := by
      rw [List.isEmpty_eq_false_iff_exists_mem]
      exact List.exists_mem_of_length_pos (by omega)
    have htake : (padded width n).take 9 = padded width n :=
      List.take_of_length_le (by omega)
    simp only [List.cons_append, fraction, hrun, hne, Bool.false_eq_true, if_false, htake,
      ofDigitChars_padded, hlength, List.drop_left' hlength]
  unfold nanosPerSecond at h
  rw [fractionText]
  split
  · rename_i hzero
    rw [hzero]
    rfl
  split
  · rw [hpoint (by decide) (by decide) (by omega)]
    rw [show tenTo (9 - 3) = 1000000 from rfl]
    congr 2
    omega
  split
  · rw [hpoint (by decide) (by decide) (by omega)]
    rw [show tenTo (9 - 6) = 1000 from rfl]
    congr 2
    omega
  · rw [hpoint (by decide) (by decide) (by omega)]
    rw [show tenTo (9 - 9) = 1 from rfl, Nat.mul_one]

/-! ## The standard form -/

/-- A date, a time and a fraction in the order in which they are written, after the year. -/
def spelling (year : List Char) (month day hour minute second nano : Nat) : List Char :=
  year ++ '-' :: (padded 2 month ++ '-' :: (padded 2 day ++ 'T' :: (padded 2 hour ++ ':' ::
    (padded 2 minute ++ ':' :: (padded 2 second ++ (fractionText nano ++ ['Z']))))))

theorem toList_write (i : Instant) :
    (write i).toList = spelling (yearText i.year) (dateOf i.day).2.1 (dateOf i.day).2.2
      (i.second / 3600) (i.second / 60 % 60) (i.second % 60 + i.nano / nanosPerSecond)
      (i.nano % nanosPerSecond) := by
  have hnano := i.nano_lt
  have hleap : (if i.inLeapSecond = true then (1, i.nano - nanosPerSecond) else (0, i.nano)) =
      (i.nano / nanosPerSecond, i.nano % nanosPerSecond) := by
    unfold Instant.inLeapSecond
    unfold nanosPerSecond at hnano ⊢
    split
    · rename_i h
      rw [decide_eq_true_iff] at h
      exact Prod.ext (by omega) (by omega)
    · rename_i h
      rw [decide_eq_true_iff] at h
      exact Prod.ext (by omega) (by omega)
  rw [write]
  simp only [hleap, spelling, Instant.year, String.toList_ofList, List.append_assoc,
    List.cons_append, List.nil_append]

def assembled (year : Int) (month day hour minute second nano : Nat) : Option Instant := do
  let date ← dayOf? year month day
  let (secs, nano) ← secondOfDay? hour minute second nano
  Instant.ofParts? date secs nano

/-- A second of a day lies in the day, and a fraction that fills it belongs to a leap second, which
ends a minute. -/
theorem secondOfDay?_spec {hour minute second : Int} {nano s n : Nat}
    (hnano : nano < nanosPerSecond) (h : secondOfDay? hour minute second nano = some (s, n)) :
    s < secondsPerDay ∧ (nanosPerSecond ≤ n → s % 60 = 59) := by
  unfold secondsPerDay
  simp only [secondOfDay?] at h
  split at h
  · split at h <;> cases h
    · exact ⟨by omega, fun _ => by omega⟩
    · exact ⟨by omega, fun hle => by omega⟩
  · cases h

theorem expect_self (c : Char) (cs : List Char) : expect c (c :: cs) = some cs := by
  rw [expect, if_pos (beq_self_eq_true c)]

theorem readStandard_spelling {year month day hour minute second nano : Nat} (hyear : year < 10000)
    (hmonth : month < 100) (hday : day < 100) (hhour : hour < 100) (hminute : minute < 100)
    (hsecond : second < 100) (hnano : nano < nanosPerSecond) :
    readStandard (spelling (padded 4 year) month day hour minute second nano) =
      assembled year month day hour minute second nano := by
  have htwo : ∀ {n : Nat}, n < 100 → ∀ rest, number 2 (some 2) (padded 2 n ++ rest) =
      some ((n : Int), rest) := fun h rest => number_padded (by decide) h rest
  have hfour : ∀ rest, number 4 (some 4) (padded 4 year ++ rest) = some ((year : Int), rest) :=
    number_padded (by decide) hyear
  rw [readStandard, spelling, hfour, Option.bind_eq_bind, Option.bind_some]
  dsimp only
  rw [expect_self, Option.bind_eq_bind, Option.bind_some, htwo hmonth, Option.bind_some]
  dsimp only
  rw [expect_self, Option.bind_eq_bind, Option.bind_some, htwo hday, Option.bind_some]
  dsimp only
  rw [if_pos (by decide), Option.bind_eq_bind, Option.bind_some, htwo hhour, Option.bind_some]
  dsimp only
  rw [expect_self, Option.bind_eq_bind, Option.bind_some, htwo hminute, Option.bind_some]
  dsimp only
  rw [expect_self, Option.bind_eq_bind, Option.bind_some, htwo hsecond, Option.bind_some]
  dsimp only
  rw [fraction_fractionText hnano, Option.bind_some]
  dsimp only
  rw [show offset ['Z'] = some (0, []) from rfl, Option.bind_some, if_neg (by decide)]
  rw [Int.toNat_natCast, Int.toNat_natCast, assembled, Option.bind_eq_bind]
  congr 1
  funext date
  rw [Option.bind_eq_bind]
  rcases hsecs : secondOfDay? hour minute second nano with _ | ⟨secs, n⟩
  · rfl
  · have hlt := (secondOfDay?_spec hnano hsecs).1
    rw [Option.bind_some, Option.bind_some]
    dsimp only
    have hday : ((secs : Int) - 0).ediv secondsPerDay = 0 := by
      rw [Int.sub_zero]
      exact Int.ediv_eq_zero_of_lt (by omega) (by omega)
    have hsecond : (((secs : Int) - 0).emod secondsPerDay).toNat = secs := by
      rw [Int.sub_zero]
      change ((secs : Int) % secondsPerDay).toNat = secs
      rw [Int.emod_eq_of_lt (by omega) (by omega), Int.toNat_natCast]
    rw [hday, hsecond, Int.add_zero]

theorem secondOfDay?_split {i : Instant} (hi : i.Timed) :
    secondOfDay? (i.second / 3600 : Nat) (i.second / 60 % 60 : Nat)
      (i.second % 60 + i.nano / nanosPerSecond : Nat) (i.nano % nanosPerSecond) =
        some (i.second, i.nano) := by
  have hsecond := i.second_lt
  have hnano := i.nano_lt
  unfold Instant.Timed Instant.inLeapSecond at hi
  unfold secondsPerDay at hsecond
  rw [secondOfDay?, if_pos (by
    unfold nanosPerSecond at *
    simp only [decide_eq_true_eq] at hi
    omega)]
  unfold nanosPerSecond at *
  rw [decide_eq_true_eq] at hi
  dsimp only
  split
  · congr 2 <;> omega
  · congr 2 <;> omega

theorem readStandard_write {i : Instant} (hi : i.Timed) (hyear : i.InFourDigits) :
    readStandard (write i).toList = some i := by
  obtain ⟨hlow, hhigh⟩ := hyear
  have hdate := dateOf_bounds i.day
  have hsecond := i.second_lt
  have hnano := i.nano_lt
  unfold secondsPerDay at hsecond
  have htext : yearText i.year = padded 4 i.year.toNat := if_pos ⟨hlow, hhigh⟩
  have hextra : i.nano / nanosPerSecond ≤ 1 := by
    unfold nanosPerSecond at hnano ⊢
    omega
  have hfraction : i.nano % nanosPerSecond < nanosPerSecond := Nat.mod_lt _ (by decide)
  rw [toList_write, htext, readStandard_spelling (by omega) (by omega) (by omega) (by omega)
    (by omega) (by omega) hfraction, Int.toNat_of_nonneg hlow]
  rw [assembled, secondOfDay?_split hi, Instant.year, dayOf?_dateOf]
  exact Instant.ofParts?_self i

/-! ## Forms with a format -/

/-- What was read in front of the rest of a text has no `Z` in it. -/
def Passes (cs rest : List Char) : Prop :=
  ∃ front, cs = front ++ rest ∧ 'Z' ∉ front

theorem Passes.refl (cs : List Char) : Passes cs cs :=
  ⟨[], rfl, List.not_mem_nil⟩

theorem Passes.trans {cs rest tail : List Char} (h : Passes cs rest) (h' : Passes rest tail) :
    Passes cs tail := by
  obtain ⟨front, rfl, hfront⟩ := h
  obtain ⟨back, rfl, hback⟩ := h'
  exact ⟨front ++ back, (List.append_assoc _ _ _).symm, by simp [hfront, hback]⟩

theorem passes_cons {c : Char} (hc : c ≠ 'Z') (cs : List Char) : Passes (c :: cs) cs :=
  ⟨[c], rfl, by simpa using Ne.symm hc⟩

theorem passes_dropWhile {p : Char → Bool} (hp : p 'Z' = false) (cs : List Char) :
    Passes cs (cs.dropWhile p) := by
  refine ⟨cs.takeWhile p, List.takeWhile_append_dropWhile.symm, fun h => ?_⟩
  rw [List.mem_takeWhile_imp h] at hp
  cases hp

theorem passes_expect {c : Char} (hc : c ≠ 'Z') {cs rest : List Char}
    (h : expect c cs = some rest) : Passes cs rest := by
  cases cs with
  | nil => cases h
  | cons d cs =>
    rw [expect] at h
    split at h
    · rename_i hd
      cases h
      exact passes_cons (beq_iff_eq.mp hd ▸ hc) _
    · cases h

theorem passes_number {least : Nat} {most : Option Nat} {cs rest : List Char} {n : Int}
    (h : number least most cs = some (n, rest)) : Passes cs rest := by
  have hrun : ∀ k, Passes cs (cs.drop ((cs.takeWhile isDigit).take k).length) := by
    intro k
    have hprefix : (cs.takeWhile isDigit).take k <+: cs :=
      (List.take_prefix _ _).trans (List.takeWhile_prefix _)
    refine ⟨(cs.takeWhile isDigit).take k, ?_, fun hz => ?_⟩
    · exact (List.prefix_iff_eq_append.mp hprefix).symm
    · cases List.mem_takeWhile_imp (List.mem_of_mem_take hz)
  unfold number at h
  cases most with
  | some k =>
    dsimp only at h
    split at h
    · cases h
    · cases h
      exact hrun k
  | none =>
    dsimp only at h
    split at h
    · cases h
    · cases h
      have hall := hrun (cs.takeWhile isDigit).length
      rwa [List.take_length] at hall

theorem passes_fieldNumber {signed : Bool} {width : Nat} {cs rest : List Char} {n : Int}
    (h : fieldNumber signed width cs = some (n, rest)) : Passes cs rest := by
  refine (passes_dropWhile (p := isBlank) (by decide) cs).trans ?_
  unfold fieldNumber at h
  split at h
  · rename_i digits hdigits
    rw [hdigits]
    obtain ⟨⟨m, tail⟩, hnumber, heq⟩ := Option.map_eq_some_iff.mp h
    cases heq
    exact (passes_cons (by decide) digits).trans (passes_number hnumber)
  · rename_i digits hdigits
    rw [hdigits]
    exact (passes_cons (by decide) digits).trans (passes_number h)
  · exact passes_number h

/-- A directive that reads no letters, or a literal one that is no `Z`. -/
def Directive.Unlettered (d : Directive) : Prop :=
  d ≠ .half ∧ d ≠ .literal 'Z'

instance (d : Directive) : Decidable d.Unlettered :=
  inferInstanceAs (Decidable (_ ∧ _))

theorem passes_readField {f g : Fields} {cs rest : List Char} {d : Directive} (hd : d.Unlettered)
    (h : readField f cs d = some (g, rest)) : Passes cs rest := by
  cases d with
  | half => exact absurd rfl hd.1
  | literal c =>
    rw [readField] at h
    split at h
    · cases h
      exact passes_dropWhile (by decide) cs
    · obtain ⟨tail, htail, heq⟩ := Option.map_eq_some_iff.mp h
      cases heq
      exact passes_expect (fun hc => hd.2 (congrArg Directive.literal hc)) htail
  | hour =>
    simp only [readField, Option.bind_eq_bind, Option.bind_eq_some_iff] at h
    obtain ⟨⟨n, tail⟩, hnumber, _, _, _, _, heq⟩ := h
    cases heq
    exact passes_fieldNumber hnumber
  | hourOfHalf =>
    simp only [readField, Option.bind_eq_bind, Option.bind_eq_some_iff] at h
    obtain ⟨⟨n, tail⟩, hnumber, hrest⟩ := h
    split at hrest
    · cases hrest
    · obtain ⟨_, _, heq⟩ := Option.bind_eq_some_iff.mp hrest
      cases heq
      exact passes_fieldNumber hnumber
  | _ =>
    simp only [readField, Option.bind_eq_bind, Option.bind_eq_some_iff] at h
    obtain ⟨⟨n, tail⟩, hnumber, _, _, heq⟩ := h
    cases heq
    exact passes_fieldNumber hnumber

/-- A format without letters reads no text with a `Z` in it. -/
theorem readFields_eq_none {cs : List Char} (hcs : 'Z' ∈ cs) {ds : List Directive}
    (hds : ∀ d ∈ ds, d.Unlettered) (f : Fields) : readFields f cs ds = none := by
  induction ds generalizing f cs with
  | nil =>
    have hne : cs.isEmpty = false := List.isEmpty_eq_false_iff_exists_mem.mpr ⟨_, hcs⟩
    rw [readFields, hne]
    rfl
  | cons d ds ih =>
    rw [List.forall_mem_cons] at hds
    rw [readFields, Option.bind_eq_bind]
    rcases hfield : readField f cs d with _ | ⟨g, rest⟩
    · rfl
    · obtain ⟨front, rfl, hfront⟩ := passes_readField hds.1 hfield
      exact ih ((List.mem_append.mp hcs).resolve_left hfront) hds.2 g

theorem readAs_eq_none {cs : List Char} (hcs : 'Z' ∈ cs) {ds : List Directive}
    (hds : ∀ d ∈ ds, d.Unlettered) (timed : Bool) : readAs timed ds cs = none := by
  rw [readAs, readFields_eq_none hcs hds]
  rfl

/-! ## Reading what was written -/

theorem isBlank_of_mem_padded {width n : Nat} {c : Char} (h : c ∈ padded width n) :
    isBlank c = false :=
  isBlank_of_isDigit (isDigit_eq c ▸ isDigit_of_mem_padded h)

theorem isBlank_of_mem_yearText {year : Int} {c : Char} (h : c ∈ yearText year) :
    isBlank c = false := by
  unfold yearText at h
  split at h
  · exact isBlank_of_mem_padded h
  · rcases List.mem_cons.mp h with rfl | h
    · split <;> rfl
    · exact isBlank_of_mem_padded h

theorem isBlank_of_mem_fractionText {nano : Nat} {c : Char} (h : c ∈ fractionText nano) :
    isBlank c = false := by
  have hpoint : ∀ {width n : Nat}, c ∈ '.' :: padded width n → isBlank c = false := by
    intro width n hc
    rcases List.mem_cons.mp hc with rfl | hc
    · rfl
    · exact isBlank_of_mem_padded hc
  unfold fractionText at h
  split at h
  · cases h
  split at h
  · exact hpoint h
  split at h
  · exact hpoint h
  · exact hpoint h

theorem trimChars_write (i : Instant) : trimChars (write i).toList = (write i).toList := by
  rw [trimChars_eq_iff, toList_write]
  refine trims_self fun c hc => ?_
  simp only [spelling, List.mem_append, List.mem_cons, List.not_mem_nil, or_false] at hc
  rcases hc with h | rfl | h | rfl | h | rfl | h | rfl | h | rfl | h | h | rfl
  · exact isBlank_of_mem_yearText h
  · rfl
  · exact isBlank_of_mem_padded h
  · rfl
  · exact isBlank_of_mem_padded h
  · rfl
  · exact isBlank_of_mem_padded h
  · rfl
  · exact isBlank_of_mem_padded h
  · rfl
  · exact isBlank_of_mem_padded h
  · exact isBlank_of_mem_fractionText h
  · rfl

theorem readStandard_signed {i : Instant} (hyear : ¬i.InFourDigits) :
    readStandard (write i).toList = none := by
  have htext : yearText i.year =
      (if i.year < 0 then '-' else '+') :: padded 4 i.year.natAbs := if_neg hyear
  rw [toList_write, htext, spelling, readStandard]
  split <;> rfl

/-- What is written is read back as long as its year has four digits, and not at all otherwise. -/
theorem read_write {i : Instant} (hi : i.Timed) :
    read (write i) = if i.InFourDigits then some i else none := by
  have hz : 'Z' ∈ (write i).toList := by
    rw [toList_write, spelling]
    simp
  have hplain : ∀ timed format, (∀ d ∈ Directive.ofFormat format, d.Unlettered) →
      readAs timed (Directive.ofFormat format) (write i).toList = none :=
    fun timed format hds => readAs_eq_none hz hds timed
  rw [read, trimChars_write]
  dsimp only
  rw [hplain, hplain, hplain]
  · split
    · rename_i hyear
      rw [readStandard_write hi hyear]
      rfl
    · rename_i hyear
      rw [readStandard_signed hyear]
      rfl
  all_goals decide

end Calendar

end Verdict
