/-!
# Instants

A point in time in UTC: a calendar day, a second of that day and a fraction in nanoseconds. A
fraction of a second and more lies inside a leap second, which ends its minute.
-/

namespace Verdict

namespace Calendar

/-! ## Days -/

def dayOf (year : Int) (month day : Nat) : Int :=
  -- years are counted from March, so that a leap day ends its year
  let y := if month ≤ 2 then year - 1 else year
  let era := y.fdiv 400
  let yearOfEra := y - era * 400
  let shifted : Int := (month + 9) % 12
  let dayOfYear := (153 * shifted + 2) / 5 + day - 1
  era * 146097 + (yearOfEra * 365 + yearOfEra / 4 - yearOfEra / 100 + dayOfYear) - 719468

def dateOf (day : Int) : Int × Nat × Nat :=
  let z := day + 719468
  let era := z.fdiv 146097
  let dayOfEra := z - era * 146097
  let yearOfEra := (dayOfEra - dayOfEra / 1460 + dayOfEra / 36524 - dayOfEra / 146096) / 365
  let dayOfYear := dayOfEra - (365 * yearOfEra + yearOfEra / 4 - yearOfEra / 100)
  let shifted := (5 * dayOfYear + 2) / 153
  let day := dayOfYear - (153 * shifted + 2) / 5 + 1
  let month := if shifted < 10 then shifted + 3 else shifted - 9
  (yearOfEra + era * 400 + (if month ≤ 2 then 1 else 0), month.toNat, day.toNat)

def isLeapYear (year : Int) : Bool :=
  year % 4 == 0 && (year % 100 != 0 || year % 400 == 0)

def daysInMonth (year : Int) (month : Nat) : Nat :=
  if month = 2 then (if isLeapYear year then 29 else 28)
  else if month = 4 ∨ month = 6 ∨ month = 9 ∨ month = 11 then 30
  else 31

def dayOf? (year : Int) (month day : Nat) : Option Int :=
  if 1 ≤ month ∧ month ≤ 12 ∧ 1 ≤ day ∧ day ≤ daysInMonth year month then
    some (dayOf year month day)
  else none

def firstDay : Int := -96465292

def lastDay : Int := 95026236

def secondsPerDay : Nat := 86400
def nanosPerSecond : Nat := 1000000000

end Calendar

open Calendar

structure Instant where
  day : Int
  second : Nat
  nano : Nat
  first_le : firstDay ≤ day
  le_last : day ≤ lastDay
  second_lt : second < secondsPerDay
  nano_lt : nano < 2 * nanosPerSecond
  deriving DecidableEq

namespace Instant

instance : Inhabited Instant :=
  ⟨⟨0, 0, 0, by decide, by decide, by decide, by decide⟩⟩

def ofParts? (day : Int) (second nano : Nat) : Option Instant :=
  if h : (firstDay ≤ day ∧ day ≤ lastDay) ∧ second < secondsPerDay ∧ nano < 2 * nanosPerSecond then
    some ⟨day, second, nano, h.1.1, h.1.2, h.2.1, h.2.2⟩
  else none

def ofNanos? (day nanos : Int) : Option Instant :=
  let whole := (secondsPerDay * nanosPerSecond : Int)
  let rest := nanos.emod whole
  ofParts? (day + nanos.ediv whole) (rest / nanosPerSecond).toNat (rest % nanosPerSecond).toNat

def ofMillis? (ms : Int) : Option Instant :=
  ofNanos? 0 (ms * 1000000)

def inLeapSecond (i : Instant) : Bool :=
  nanosPerSecond ≤ i.nano

def order (i j : Instant) : Ordering :=
  (compare i.day j.day).then ((compare i.second j.second).then (compare i.nano j.nano))

def dayOrder (i j : Instant) : Ordering :=
  compare i.day j.day

end Instant

end Verdict
