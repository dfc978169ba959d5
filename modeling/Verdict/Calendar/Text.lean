import Verdict.Calendar.Instant
import Verdict.Decimal.Reading
import Verdict.Decimal.Fixed
import Verdict.Text.Blank

/-!
# Written dates

Instants are written as RFC 3339 asks, and read in that form, in a few plain forms, and in forms
that a format of directives describes. In the latter, numbers may have fewer digits than usual
and white space in front.
-/

namespace Verdict.Calendar

open Verdict.Decimal Verdict.Text

/-! ## Writing -/

def yearText (year : Int) : List Char :=
  if 0 ≤ year ∧ year ≤ 9999 then padded 4 year.toNat
  else (if year < 0 then '-' else '+') :: padded 4 year.natAbs

def fractionText (nano : Nat) : List Char :=
  if nano = 0 then []
  else if nano % 1000000 = 0 then '.' :: padded 3 (nano / 1000000)
  else if nano % 1000 = 0 then '.' :: padded 6 (nano / 1000)
  else '.' :: padded 9 nano

def write (i : Instant) : String :=
  let (year, month, day) := dateOf i.day
  let (extra, nano) := if i.inLeapSecond then (1, i.nano - nanosPerSecond) else (0, i.nano)
  String.ofList <|
    yearText year ++ ['-'] ++ padded 2 month ++ ['-'] ++ padded 2 day ++ ['T'] ++
    padded 2 (i.second / 3600) ++ [':'] ++ padded 2 (i.second / 60 % 60) ++ [':'] ++
    padded 2 (i.second % 60 + extra) ++ fractionText nano ++ ['Z']

/-! ## Numbers -/

/-- A run of at least `least` and at most `most` digits, as a 64-bit number, and the rest. -/
def number (least : Nat) (most : Option Nat) (cs : List Char) :
    Option (Int × List Char) :=
  let run := cs.takeWhile isDigit
  let ds := match most with
    | some n => run.take n
    | none => run
  if ds.length < least ∨ Word.signedLimit ≤ natOf ds then none
  else some (natOf ds, cs.drop ds.length)

def expect (c : Char) : List Char → Option (List Char)
  | d :: cs => if c == d then some cs else none
  | [] => none

/-! ## Standard form -/

def offset (cs : List Char) : Option (Int × List Char) :=
  let signed := fun (sign : Int) (cs : List Char) => do
    let (hours, cs) ← number 2 (some 2) cs
    let cs ← expect ':' cs
    let (minutes, cs) ← number 2 (some 2) cs
    if 23 < hours ∨ 59 < minutes then none
    return (sign * (hours * 3600 + minutes * 60), cs)
  match cs with
  | 'Z' :: cs => some (0, cs)
  | 'z' :: cs => some (0, cs)
  | '+' :: cs => signed 1 cs
  | '-' :: cs => signed (-1) cs
  | '\u2212' :: cs => signed (-1) cs
  | _ => none

/-- A fraction of a second in nanoseconds; digits beyond the ninth are left out. -/
def fraction : List Char → Option (Nat × List Char)
  | '.' :: cs =>
    let run := cs.takeWhile isDigit
    if run.isEmpty then none
    else
      let kept := run.take 9
      some (natOf kept * tenTo (9 - kept.length), cs.drop run.length)
  | cs => some (0, cs)

def secondOfDay? (hour minute second : Int) (nano : Nat) : Option (Nat × Nat) :=
  if hour ≤ 23 ∧ minute ≤ 59 ∧ second ≤ 60 then
    let start := hour.toNat * 3600 + minute.toNat * 60
    if second = 60 then some (start + 59, nano + nanosPerSecond)
    else some (start + second.toNat, nano)
  else none

/-- A date and a time with an offset, as RFC 3339 has them; a blank may stand between them. -/
def readStandard (cs : List Char) : Option Instant := do
  let (year, cs) ← number 4 (some 4) cs
  let cs ← expect '-' cs
  let (month, cs) ← number 2 (some 2) cs
  let cs ← expect '-' cs
  let (day, cs) ← number 2 (some 2) cs
  let cs ← match cs with
    | c :: cs => if c == 'T' || c == 't' || c == ' ' then some cs else none
    | [] => none
  let (hour, cs) ← number 2 (some 2) cs
  let cs ← expect ':' cs
  let (minute, cs) ← number 2 (some 2) cs
  let cs ← expect ':' cs
  let (second, cs) ← number 2 (some 2) cs
  let (nano, cs) ← fraction cs
  let (east, cs) ← offset cs
  if !cs.isEmpty then none
  let date ← dayOf? year month.toNat day.toNat
  let (secs, nano) ← secondOfDay? hour minute second nano
  let utc := (secs : Int) - east
  Instant.ofParts? (date + utc.ediv secondsPerDay) (utc.emod secondsPerDay).toNat nano

/-! ## Formats -/

inductive Directive where
  | year
  | yearOfCentury
  | month
  | day
  | hour
  | hourOfHalf
  | minute
  | second
  | half
  | literal (c : Char)
  deriving DecidableEq

namespace Directive

def text : Directive → String
  | year => "%Y"
  | yearOfCentury => "%y"
  | month => "%m"
  | day => "%d"
  | hour => "%H"
  | hourOfHalf => "%I"
  | minute => "%M"
  | second => "%S"
  | half => "%p"
  | literal c => if c == '%' then "%%" else String.singleton c

/-- Reads a format from left to right, taking the longest token at each place. Characters that
belong to no token stand for themselves. -/
def ofFormat : List Char → List Directive
  | [] => []
  | 'y' :: 'y' :: 'y' :: 'y' :: cs => year :: ofFormat cs
  | 'y' :: 'y' :: cs => yearOfCentury :: ofFormat cs
  | 'L' :: 'L' :: cs => month :: ofFormat cs
  | 'M' :: 'M' :: cs => month :: ofFormat cs
  | 'L' :: cs => month :: ofFormat cs
  | 'M' :: cs => month :: ofFormat cs
  | 'd' :: 'd' :: cs => day :: ofFormat cs
  | 'd' :: cs => day :: ofFormat cs
  | 'H' :: 'H' :: cs => hour :: ofFormat cs
  | 'h' :: 'h' :: cs => hourOfHalf :: ofFormat cs
  | 'm' :: 'm' :: cs => minute :: ofFormat cs
  | 's' :: 's' :: cs => second :: ofFormat cs
  | 'a' :: cs => half :: ofFormat cs
  | c :: cs => literal c :: ofFormat cs

end Directive

def spellFormat (format : String) : String :=
  String.join ((Directive.ofFormat format.toList).map Directive.text)

/-- What a text says about a date and a time. -/
structure Fields where
  year : Option Int := none
  yearOfCentury : Option Int := none
  month : Option Int := none
  day : Option Int := none
  half : Option Int := none
  hourOfHalf : Option Int := none
  minute : Option Int := none
  second : Option Int := none

def agree (old : Option Int) (low high value : Int) : Option (Option Int) :=
  if value < low ∨ high < value then none
  else match old with
    | none => some (some value)
    | some v => if v = value then some old else none

/-- A number with white space in front; a year may have a sign, and then any number of digits. -/
def fieldNumber (signed : Bool) (width : Nat) (cs : List Char) :
    Option (Int × List Char) :=
  match signed, cs.dropWhile isBlank with
  | true, '-' :: cs => (number 1 none cs).map fun (n, cs) => (-n, cs)
  | true, '+' :: cs => number 1 none cs
  | _, cs => number 1 (some width) cs

def readHalf : List Char → Option (Int × List Char)
  | a :: b :: cs =>
    if b.toLower != 'm' then none
    else if a.toLower == 'a' then some (0, cs)
    else if a.toLower == 'p' then some (1, cs)
    else none
  | _ => none

def readField (f : Fields) (cs : List Char) : Directive → Option (Fields × List Char)
  | .year => do
    let (n, cs) ← fieldNumber true 4 cs
    return ({ f with year := ← agree f.year (-0x80000000) 0x7FFFFFFF n }, cs)
  | .yearOfCentury => do
    let (n, cs) ← fieldNumber false 2 cs
    return ({ f with yearOfCentury := ← agree f.yearOfCentury 0 99 n }, cs)
  | .month => do
    let (n, cs) ← fieldNumber false 2 cs
    return ({ f with month := ← agree f.month 1 12 n }, cs)
  | .day => do
    let (n, cs) ← fieldNumber false 2 cs
    return ({ f with day := ← agree f.day 1 31 n }, cs)
  | .hour => do
    let (n, cs) ← fieldNumber false 2 cs
    let half ← agree f.half 0 1 (n / 12)
    return ({ f with half, hourOfHalf := ← agree f.hourOfHalf 0 11 (n % 12) }, cs)
  | .hourOfHalf => do
    let (n, cs) ← fieldNumber false 2 cs
    if n < 1 ∨ 12 < n then none
    return ({ f with hourOfHalf := ← agree f.hourOfHalf 0 11 (n % 12) }, cs)
  | .minute => do
    let (n, cs) ← fieldNumber false 2 cs
    return ({ f with minute := ← agree f.minute 0 59 n }, cs)
  | .second => do
    let (n, cs) ← fieldNumber false 2 cs
    return ({ f with second := ← agree f.second 0 60 n }, cs)
  | .half => do
    let (n, cs) ← readHalf cs
    return ({ f with half := ← agree f.half 0 1 n }, cs)
  | .literal c =>
    if isBlank c then some (f, cs.dropWhile isBlank)
    else (expect c cs).map fun cs => (f, cs)

def readFields (f : Fields) (cs : List Char) : List Directive → Option Fields
  | [] => if cs.isEmpty then some f else none
  | d :: ds => do
    let (f, cs) ← readField f cs d
    readFields f cs ds

def Fields.fullYear (f : Fields) : Option Int :=
  match f.year, f.yearOfCentury with
  | some y, none => some y
  | some y, some r => if 0 ≤ y ∧ y % 100 = r then some y else none
  | none, some r => some (if r < 70 then 2000 + r else 1900 + r)
  | none, none => none

def Fields.date (f : Fields) : Option Int := do
  let date ← dayOf? (← f.fullYear) (← f.month).toNat (← f.day).toNat
  if date < firstDay ∨ lastDay < date then none
  return date

def Fields.time (f : Fields) : Option (Nat × Nat) := do
  let half ← f.half
  let hour ← f.hourOfHalf
  let minute ← f.minute
  secondOfDay? (half * 12 + hour) minute (f.second.getD 0) 0

/-- Reads a whole text as date and time; without `timed`, the time counts as midnight. -/
def readAs (timed : Bool) (ds : List Directive) (cs : List Char) : Option Instant := do
  let f ← readFields {} cs ds
  let date ← f.date
  let (second, nano) ← if timed then f.time else some (0, 0)
  Instant.ofParts? date second nano

def readWith (text format : String) : Option Instant :=
  let ds := Directive.ofFormat format.toList
  readAs true ds text.toList <|> readAs false ds text.toList

/-- Reads a date: the standard form, then date and time with a blank or a `T` between, then a
date alone. White space at both ends does not count. -/
def read (text : String) : Option Instant :=
  let cs := trimChars text.toList
  let format := fun (s : String) => Directive.ofFormat s.toList
  readStandard cs
    <|> readAs true (format "yyyy-MM-dd HH:mm:ss") cs
    <|> readAs true (format "yyyy-MM-ddTHH:mm:ss") cs
    <|> readAs false (format "yyyy-MM-dd") cs

end Verdict.Calendar
