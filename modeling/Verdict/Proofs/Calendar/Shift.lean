import Verdict.Proofs.Calendar.Timed

/-!
# Shifting there and back

An amount without years and months is a length of time, the same wherever it is counted from.
Shifting by it leads to the instant that is exactly so far away, if the amount is a duration and the
calendar holds the instant.  So the opposite shift leads back.
-/

namespace Verdict

open Calendar Decimal

/-! ## Instants in a row -/

namespace Instant

/-- The nanoseconds from the start of 1970 to an instant. -/
def elapsed (i : Instant) : Int :=
  (i.day * secondsPerDay + i.second) * nanosPerSecond + i.nano

/-- The calendar has a day for the instant so many nanoseconds after the start of 1970. -/
def InCalendar (nanos : Int) : Prop :=
  firstDay * secondsPerDay * nanosPerSecond ≤ nanos ∧
    nanos < (lastDay + 1) * secondsPerDay * nanosPerSecond

theorem inLeapSecond_eq_false_iff {i : Instant} :
    i.inLeapSecond = false ↔ i.nano < nanosPerSecond := by
  rw [inLeapSecond, decide_eq_false_iff_not, Nat.not_le]

theorem ofNanos?_eq (day nanos : Int) : ofNanos? day nanos =
    ofParts? (day + nanos / 86400000000000) (nanos % 86400000000000 / 1000000000).toNat
      (nanos % 86400000000000 % 1000000000).toNat :=
  rfl

theorem ofNanos?_eq_some_iff {nanos : Int} {j : Instant} :
    ofNanos? 0 nanos = some j ↔ j.inLeapSecond = false ∧ j.elapsed = nanos := by
  rw [inLeapSecond_eq_false_iff, elapsed, ofNanos?_eq]
  unfold secondsPerDay nanosPerSecond
  constructor
  · intro h
    obtain ⟨hday, hsecond, hnano⟩ := ofParts?_eq_some h
    omega
  · rintro ⟨hnano, hsum⟩
    have hsecond := j.second_lt
    unfold secondsPerDay at hsecond
    rw [← j.ofParts?_self]
    congr 1 <;> omega

theorem ofNanos?_eq_none_iff {nanos : Int} : ofNanos? 0 nanos = none ↔ ¬ InCalendar nanos := by
  rw [ofNanos?_eq, InCalendar, ofParts?]
  unfold secondsPerDay nanosPerSecond
  split
  · rename_i h
    simp only [reduceCtorEq, false_iff, Decidable.not_not]
    omega
  · rename_i h
    simp only [true_iff]
    omega

end Instant

namespace Calendar

/-- Outside leap seconds a duration is added to what has elapsed. -/
theorem addNanos_eq {i : Instant} (hplain : i.inLeapSecond = false) (d : Int) :
    addNanos i d = Instant.ofNanos? 0 (i.elapsed + d) := by
  rw [addNanos, hplain, Instant.elapsed]
  simp only [Bool.false_eq_true, if_false]
  rw [Instant.ofNanos?_eq, Instant.ofNanos?_eq]
  unfold secondsPerDay nanosPerSecond
  congr 1 <;> omega

/-! ## Amounts as lengths of time -/

def units : List (String × Int) :=
  [("weeks", 604800), ("days", 86400), ("hours", 3600), ("minutes", 60), ("seconds", 1)]

/-- A part of an amount without its fraction, of any size; parts that are no numbers count as
zero. -/
def wholePart (fields : Members Json) (name : String) : Int :=
  match Members.value? name fields with
  | some (.num n) => truncate n.toFloat
  | _ => 0

def secondsOf (fields : Members Json) (units : List (String × Int)) : Int :=
  (units.map fun u => wholePart fields u.1 * u.2).sum

/-- The exact length of an amount, in nanoseconds: a number of seconds to the nearest millisecond,
or the sum of its parts. -/
def length : Json → Int
  | .num n => (Binary.ofFloat (n.toFloat * 1000)).roundHalfAway * 1000000
  | .obj fields => secondsOf fields units * nanosPerSecond
  | _ => 0

/-- A part is a number of 64 bits, and so is its length in seconds. -/
structure FitsPart (fields : Members Json) (u : String × Int) : Prop where
  finite : ∀ n, Members.value? u.1 fields = some (.num n) → n.toFloat.isFinite = true
  whole : (wholePart fields u.1).natAbs < Word.signedLimit
  length : (wholePart fields u.1 * u.2).natAbs ≤ maxSeconds

/-- An amount is a duration, and nothing that comes up on the way to its length is too long. -/
def IsDuration : Json → Prop
  | .num n => (n.toFloat * 1000).isFinite = true ∧
    (Binary.ofFloat (n.toFloat * 1000)).roundHalfAway.natAbs < Word.signedLimit
  | .obj fields => (∀ u ∈ units, FitsPart fields u) ∧
    ∀ first, first <+: units → (secondsOf fields first).natAbs ≤ maxSeconds
  | _ => False

section Parts

variable {fields : Members Json} {sign : Int}

theorem whole?_eq_some_iff {x : Float} {n : Int} : whole? x = some n ↔
    x.isFinite = true ∧ (truncate x).natAbs < Word.signedLimit ∧ truncate x = n := by
  rw [whole?]
  split
  · rename_i hfinite
    simp only [hfinite, Option.ite_none_right_eq_some, Option.some.injEq, true_and]
  · rename_i hfinite
    simp [hfinite]

theorem part_eq_some_iff {name : String} {n : Int} : part fields name = some n ↔
    (∀ n, Members.value? name fields = some (.num n) → n.toFloat.isFinite = true) ∧
      (wholePart fields name).natAbs < Word.signedLimit ∧ wholePart fields name = n := by
  rw [part, wholePart]
  split
  · rename_i m hm
    rw [whole?_eq_some_iff]
    simp [hm]
  · rename_i hother
    simp [show ∀ n, Members.value? name fields ≠ some (.num n) from hother, Word.signedLimit]

theorem boundedSeconds?_eq_some_iff {s t : Int} :
    boundedSeconds? s = some t ↔ s.natAbs ≤ maxSeconds ∧ s = t := by
  rw [boundedSeconds?, Option.ite_none_right_eq_some, Option.some.injEq]

theorem int64?_of_natAbs_lt {n : Int} (h : n.natAbs < Word.signedLimit) : int64? n = some n := by
  have hsigned : Word.isSigned n = true := by
    rw [Word.isSigned, Bool.and_eq_true, decide_eq_true_iff, decide_eq_true_iff]
    omega
  rw [int64?, if_pos hsigned]

def addPart (fields : Members Json) (sign total : Int) (u : String × Int) : Option Int := do
  let n ← int64? ((← part fields u.1) * sign)
  boundedSeconds? (total + (← boundedSeconds? (n * u.2)))

theorem addPart_eq_some_iff (hsign : sign.natAbs = 1) {u : String × Int} {total s : Int} :
    addPart fields sign (sign * total) u = some s ↔
      FitsPart fields u ∧ (total + wholePart fields u.1 * u.2).natAbs ≤ maxSeconds ∧
        sign * (total + wholePart fields u.1 * u.2) = s := by
  have hsigned : ∀ n : Int, (sign * n).natAbs = n.natAbs := fun n => by
    rw [Int.natAbs_mul, hsign, Nat.one_mul]
  have hmoved : ∀ n : Int, n * sign * u.2 = sign * (n * u.2) := fun n => by
    rw [Int.mul_comm n, Int.mul_assoc]
  simp only [addPart, Option.bind_eq_bind, Option.bind_eq_some_iff, part_eq_some_iff,
    boundedSeconds?_eq_some_iff]
  constructor
  · rintro ⟨-, ⟨hfinite, hwhole, rfl⟩, n, hn, -, ⟨hlength, rfl⟩, hsum, rfl⟩
    rw [int64?_of_natAbs_lt (by rwa [Int.mul_comm, hsigned]), Option.some.injEq] at hn
    subst hn
    rw [hmoved, hsigned] at hlength
    rw [hmoved, ← Int.mul_add, hsigned] at hsum
    exact ⟨⟨hfinite, hwhole, hlength⟩, hsum, by rw [hmoved, Int.mul_add]⟩
  · rintro ⟨⟨hfinite, hwhole, hlength⟩, hsum, rfl⟩
    refine ⟨_, ⟨hfinite, hwhole, rfl⟩, _,
      int64?_of_natAbs_lt (by rwa [Int.mul_comm, hsigned]), _, ⟨?_, rfl⟩, ?_, ?_⟩
    · rwa [hmoved, hsigned]
    · rwa [hmoved, ← Int.mul_add, hsigned]
    · rw [hmoved, Int.mul_add]

@[simp]
theorem secondsOf_nil : secondsOf fields [] = 0 :=
  rfl

@[simp]
theorem secondsOf_cons (u : String × Int) (us : List (String × Int)) :
    secondsOf fields (u :: us) = wholePart fields u.1 * u.2 + secondsOf fields us := by
  rw [secondsOf, List.map_cons, List.sum_cons]
  rfl

/-- The parts add up, in the direction of the sign, exactly if each of them fits and what they come
to stays a duration with each of them. -/
theorem addParts_eq_some_iff (hsign : sign.natAbs = 1) (us : List (String × Int)) {total s : Int}
    (htotal : total.natAbs ≤ maxSeconds) :
    us.foldlM (addPart fields sign) (sign * total) = some s ↔ (∀ u ∈ us, FitsPart fields u) ∧
      (∀ first, first <+: us → (total + secondsOf fields first).natAbs ≤ maxSeconds) ∧
        sign * (total + secondsOf fields us) = s := by
  induction us generalizing total with
  | nil => simp [htotal]
  | cons u us ih =>
    simp only [List.foldlM_cons, Option.bind_eq_bind, Option.bind_eq_some_iff,
      addPart_eq_some_iff hsign, List.forall_mem_cons, List.prefix_cons_iff, secondsOf_cons]
    constructor
    · rintro ⟨-, ⟨hfits, hsum, rfl⟩, hrest⟩
      obtain ⟨hall, hsums, rfl⟩ := (ih hsum).mp hrest
      refine ⟨⟨hfits, hall⟩, ?_, by rw [Int.add_assoc]⟩
      rintro first (rfl | ⟨more, rfl, hmore⟩)
      · simpa using htotal
      · rw [secondsOf_cons, ← Int.add_assoc]
        exact hsums more hmore
    · rintro ⟨⟨hfits, hall⟩, hsums, rfl⟩
      have hsum : ∀ first, first <+: us →
          (total + wholePart fields u.1 * u.2 + secondsOf fields first).natAbs ≤ maxSeconds := by
        intro first hfirst
        have hsum := hsums (u :: first) (.inr ⟨first, rfl, hfirst⟩)
        rwa [secondsOf_cons, ← Int.add_assoc] at hsum
      have hself : (total + wholePart fields u.1 * u.2).natAbs ≤ maxSeconds := by
        simpa using hsum [] (List.nil_prefix)
      exact ⟨_, ⟨hfits, hself, rfl⟩, (ih hself).mpr ⟨hall, hsum, by rw [Int.add_assoc]⟩⟩

end Parts

/-! ## Shifting -/

/-- An amount without parts of varying length: a number, or an object without years and months. -/
def IsPlain : Json → Prop
  | .num _ => True
  | .obj fields => Members.value? "years" fields = none ∧ Members.value? "months" fields = none
  | _ => False

theorem seconds?_eq_some_iff {fields : Members Json} {sign s : Int} (hsign : sign.natAbs = 1) :
    seconds? fields sign = some s ↔
      IsDuration (.obj fields) ∧ sign * secondsOf fields units = s := by
  have hsum : units.foldlM (addPart fields sign) (sign * 0) = some s ↔ _ :=
    addParts_eq_some_iff hsign units (by decide)
  simp only [Int.mul_zero, Int.zero_add] at hsum
  rw [IsDuration, and_assoc]
  exact hsum

theorem months?_eq_zero {fields : Members Json} (h : IsPlain (.obj fields)) (sign : Int) :
    months? fields sign = some 0 := by
  have hpart : ∀ name, Members.value? name fields = none → part fields name = some 0 := by
    intro name hname
    rw [part, hname]
  rw [months?, hpart _ h.1, hpart _ h.2]
  change int64? (0 * sign) = some 0
  rw [Int.zero_mul]
  rfl

variable {i : Instant} {amount : Json} {sign : Int}

theorem shift_of_isDuration (hi : i.inLeapSecond = false) (hsign : sign.natAbs = 1)
    (hplain : IsPlain amount) (h : IsDuration amount) :
    shift i amount sign = Instant.ofNanos? 0 (i.elapsed + sign * length amount) := by
  cases amount with
  | num n =>
    obtain ⟨hfinite, hlimit⟩ := h
    have hsigned : ∀ ms : Int, (ms * sign).natAbs = ms.natAbs := fun ms => by
      rw [Int.natAbs_mul, hsign, Nat.mul_one]
    rw [shift, length]
    generalize (Binary.ofFloat (n.toFloat * 1000)).roundHalfAway = ms at *
    have hms : int64? (ms * sign) = some (ms * sign) :=
      int64?_of_natAbs_lt (by rwa [hsigned])
    have hleast : ms * sign ≠ -(Word.signedLimit : Int) := fun hleast => by
      rw [← hsigned, hleast] at hlimit
      omega
    simp only [hfinite, Bool.not_true, Bool.false_eq_true, if_false, Nat.not_le.mpr hlimit, hms,
      hleast, Option.bind_eq_bind, Option.bind_some]
    rw [addNanos_eq hi, Int.mul_comm ms, Int.mul_assoc]
  | obj fields =>
    have hseconds := (seconds?_eq_some_iff hsign).mpr ⟨h, rfl⟩
    rw [shift, months?_eq_zero hplain, hseconds]
    change addNanos i (sign * secondsOf fields units * nanosPerSecond) = _
    rw [addNanos_eq hi, length, Int.mul_assoc]
  | null | bool | str | arr => cases h

theorem shift_of_not_isDuration (hsign : sign.natAbs = 1) (hplain : IsPlain amount)
    (h : ¬ IsDuration amount) : shift i amount sign = none := by
  cases amount with
  | num n =>
    rw [IsDuration, not_and_or, Bool.not_eq_true, Nat.not_lt] at h
    rw [shift]
    rcases h with hinfinite | hlimit
    · simp only [hinfinite, Bool.not_false, if_true]
      rfl
    · simp only [hlimit, if_true]
      split <;> rfl
  | obj fields =>
    have hseconds : seconds? fields sign = none := by
      rw [Option.eq_none_iff_forall_ne_some]
      exact fun s hs => h ((seconds?_eq_some_iff hsign).mp hs).1
    rw [shift, months?_eq_zero hplain, hseconds]
    rfl
  | null | bool | str | arr => rfl

theorem shift_eq_some_iff (hi : i.inLeapSecond = false) (hsign : sign.natAbs = 1)
    (hplain : IsPlain amount) {j : Instant} : shift i amount sign = some j ↔
      IsDuration amount ∧ j.inLeapSecond = false ∧
        j.elapsed = i.elapsed + sign * length amount := by
  by_cases h : IsDuration amount
  · rw [shift_of_isDuration hi hsign hplain h, Instant.ofNanos?_eq_some_iff]
    exact (and_iff_right h).symm
  · rw [shift_of_not_isDuration hsign hplain h]
    exact iff_of_false nofun fun hj => h hj.1

theorem shift_eq_none_iff (hi : i.inLeapSecond = false) (hsign : sign.natAbs = 1)
    (hplain : IsPlain amount) : shift i amount sign = none ↔
      ¬ (IsDuration amount ∧ Instant.InCalendar (i.elapsed + sign * length amount)) := by
  by_cases h : IsDuration amount
  · rw [shift_of_isDuration hi hsign hplain h, Instant.ofNanos?_eq_none_iff, and_iff_right h]
  · rw [shift_of_not_isDuration hsign hplain h]
    exact iff_of_true rfl fun hj => h hj.1

/-- What an amount of fixed length shifts by, either way, the opposite shift undoes.  The shift is
exactly as far as the amount is long, and there is none exactly if the amount is no duration or
leads out of the calendar. -/
theorem shift_undone {i : Instant} {amount : Json} {sign : Int} (hi : i.inLeapSecond = false)
    (hplain : IsPlain amount) (hsign : sign = 1 ∨ sign = -1) :
    (∀ j, shift i amount sign = some j →
      shift j amount (-sign) = some i ∧ IsDuration amount ∧
        j.elapsed - i.elapsed = sign * length amount) ∧
    (shift i amount sign = none ↔
      ¬ (IsDuration amount ∧ Instant.InCalendar (i.elapsed + sign * length amount))) := by
  have hone : sign.natAbs = 1 := by omega
  refine ⟨fun j h => ?_, shift_eq_none_iff hi hone hplain⟩
  obtain ⟨hduration, hj, helapsed⟩ := (shift_eq_some_iff hi hone hplain).mp h
  refine ⟨?_, hduration, by omega⟩
  rw [shift_eq_some_iff hj (by omega) hplain]
  refine ⟨hduration, hi, ?_⟩
  rw [Int.neg_mul]
  omega

/-- Two days less half a day before the last second of the calendar, the same amount leads back to
it, and beyond it there is nothing. -/
theorem shift_undone_last :
    let last : Instant := ⟨lastDay, 86399, 0, by decide, by decide, by decide, by decide⟩
    let days : Number := .float 2.75 (by decide)
    let amount := Json.obj [("days", .num days), ("hours", .ofInt (-12)), ("minutes", .str "1")]
    last.inLeapSecond = false ∧ IsPlain amount ∧
      (∃ j, shift last amount (-1) = some j ∧ shift j amount 1 = some last ∧
        j.elapsed - last.elapsed = -length amount) ∧ length amount = 129600000000000 ∧
      shift last amount 1 = none := by
  intro last days amount
  have hi : last.inLeapSecond = false := rfl
  have hplain : IsPlain amount := ⟨rfl, rfl⟩
  have hsome : (shift last amount (-1)).isSome = true := by decide
  have hnone : shift last amount 1 = none := by decide
  have hlength : length amount = 129600000000000 := by decide
  obtain ⟨j, hj⟩ := Option.isSome_iff_exists.mp hsome
  obtain ⟨hback, -, hfar⟩ := (shift_undone hi hplain (.inr rfl)).1 j hj
  exact ⟨hi, hplain, ⟨j, hj, hback, by rw [hfar, Int.neg_one_mul]⟩, hlength, hnone⟩

end Calendar

end Verdict
