import Verdict.Calendar.Text
import Verdict.Json.Basic

/-!
# Shifting instants

An amount of time is a number of seconds, or an object with parts from years to seconds. Amounts
are whole numbers of 64 bits, and every result has to lie in the calendar.
-/

namespace Verdict.Calendar

open Verdict.Decimal

def int64? (n : Int) : Option Int :=
  if Word.isSigned n then some n else none

/-- A finite double without its fraction, if it fits 64 bits with a sign. -/
def whole? (x : Float) : Option Int :=
  if x.isFinite then
    let n := truncate x
    if n.natAbs < Word.signedLimit then some n else none
  else none

def maxSeconds : Nat := 9223372036854775

def boundedSeconds? (s : Int) : Option Int :=
  if s.natAbs ≤ maxSeconds then some s else none

/-- The instant a duration later. A leap second is left behind with its last whole second. -/
def addNanos (i : Instant) (d : Int) : Option Instant :=
  let second := (nanosPerSecond : Int)
  let seconds := d.tdiv second
  let rest := d.tmod second
  if i.inLeapSecond then
    if seconds > 0 ∨ (rest > 0 ∧ (i.nano : Int) ≥ 2 * second - rest) then
      Instant.ofNanos? i.day (i.second * second + (i.nano - second) + d)
    else if seconds < 0 then
      Instant.ofNanos? i.day ((i.second + 1) * second + (i.nano - second) + d)
    else Instant.ofParts? i.day i.second (i.nano + rest).toNat
  else Instant.ofNanos? i.day (i.second * second + i.nano + d)

def addMonths (i : Instant) (months : Int) : Option Instant :=
  if months = 0 then some i
  else if 0x80000000 ≤ months.natAbs then none
  else do
    let (year, month, day) := dateOf i.day
    let total := year * 12 + month - 1 + months
    let year := total.ediv 12
    let month := (total.emod 12).toNat + 1
    let day ← dayOf? year month (min day (daysInMonth year month))
    Instant.ofParts? day i.second i.nano

/-- A part of an amount; parts that are no numbers count as zero. -/
def part (fields : Members Json) (name : String) : Option Int :=
  match fields.value? name with
  | some (.num n) => whole? n.toFloat
  | _ => some 0

def months? (fields : Members Json) (sign : Int) : Option Int := do
  let years ← int64? ((← part fields "years") * 12)
  let months ← int64? (years + (← part fields "months"))
  int64? (months * sign)

def seconds? (fields : Members Json) (sign : Int) : Option Int :=
  let units := [("weeks", 604800), ("days", 86400), ("hours", 3600), ("minutes", 60),
    ("seconds", 1)]
  units.foldlM (fun total (name, size) => do
    let n ← int64? ((← part fields name) * sign)
    boundedSeconds? (total + (← boundedSeconds? (n * size)))) 0

def shift (i : Instant) (amount : Json) (sign : Int) : Option Instant :=
  match amount with
  | .num n => do
    let product := n.toFloat * 1000
    if !product.isFinite then none
    let ms := (Binary.ofFloat product).roundHalfAway
    if Word.signedLimit ≤ ms.natAbs then none
    let ms ← int64? (ms * sign)
    if ms = -(Word.signedLimit : Int) then none
    addNanos i (ms * 1000000)
  | .obj fields => do
    let months ← months? fields sign
    let moved ← addMonths i months
    addNanos moved ((← seconds? fields sign) * nanosPerSecond)
  | _ => none

end Verdict.Calendar

namespace Verdict

inductive RelativeDay where
  | today
  | yesterday
  | tomorrow
  deriving DecidableEq

namespace RelativeDay

def name : RelativeDay → String
  | today => "today"
  | yesterday => "yesterday"
  | tomorrow => "tomorrow"

def ofName? (name : String) : Option RelativeDay :=
  [today, yesterday, tomorrow].find? (·.name == name)

def resolve (now : Instant) (d : RelativeDay) : Instant :=
  let days := fun (n : Int) =>
    (Calendar.addNanos now (n * Calendar.secondsPerDay * Calendar.nanosPerSecond)).getD now
  match d with
  | today => now
  | yesterday => days (-1)
  | tomorrow => days 1

end RelativeDay

/-! ## Dates as values -/

namespace Json

def instant? : Json → Option Instant
  | str s => Calendar.read s
  | num n =>
    let x := n.toFloat
    if x.isFinite then Instant.ofMillis? (Decimal.truncate x) else none
  | _ => none

def ofInstant (i : Instant) : Json :=
  str (Calendar.write i)

def isDateText : Json → Bool
  | str s => (Calendar.read s).isSome
  | _ => false

end Json

end Verdict
