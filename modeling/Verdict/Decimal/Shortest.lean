import Verdict.Decimal.Binary

/-!
# Shortest decimal digits

The shortest digits that read back as a given double, and among those the nearest. The search
tries one digit, two digits, and so on: on each decimal grid only the two neighbours of the
value can lie in the interval of numbers that round to it. Where both do and the value lies right
between them, a rule for ties decides.
-/

namespace Verdict.Decimal

/-- The number `coefficient · 10 ^ exponent`. -/
structure Scaled where
  coefficient : Nat
  exponent : Int
  deriving DecidableEq, Repr

/-- Where a number goes that lies right between two decimals. -/
inductive Tie where
  /-- To the one whose last digit is even. -/
  | even
  /-- To the greater one. -/
  | up
  deriving DecidableEq

namespace Shortest

def compareScales (a : Nat) (p : Int) (b : Nat) (q : Int) : Ordering :=
  compare (a * twoTo p.toNat * tenTo (-q).toNat) (b * tenTo q.toNat * twoTo (-p).toNat)

/-- The numbers that round to a double, each end scaled by `2 ^ exponent`. -/
structure Interval where
  low : Nat
  value : Nat
  high : Nat
  exponent : Int
  closed : Bool

def interval (b : Binary) : Interval :=
  let m := 4 * b.mantissa
  -- below a power of two the neighbours are twice as dense
  let below := if b.mantissa = twoTo 52 ∧ b.exponent > -1074 then 1 else 2
  { low := m - below, value := m, high := m + 2, exponent := b.exponent - 2
    closed := b.mantissa % 2 == 0 }

def Interval.contains (i : Interval) (s : Nat) (e : Int) : Bool :=
  match compareScales i.low i.exponent s e, compareScales i.high i.exponent s e with
  | .lt, .gt => true
  | .eq, _ | _, .eq => i.closed
  | _, _ => false

def leading (m : Nat) (p : Int) : Int :=
  let guess := ((m.log2 + p) * 30103).fdiv 100000
  if compareScales m p 1 guess == .lt then guess - 1
  else if compareScales m p 1 (guess + 1) == .lt then guess
  else guess + 1

def floorOn (m : Nat) (p e : Int) : Nat :=
  (m * twoTo p.toNat * tenTo (-e).toNat) / (twoTo (-p).toNat * tenTo e.toNat)

def goesDown (tie : Tie) (i : Interval) (s : Nat) (e : Int) : Bool :=
  -- twice the value against the sum of both neighbours
  match compareScales (2 * i.value) i.exponent (2 * s + 1) e with
  | .lt => true
  | .gt => false
  | .eq => tie == .even && s % 2 == 0

def onGrid (tie : Tie) (i : Interval) (e : Int) : Option Scaled :=
  let s := floorOn i.value i.exponent e
  match i.contains s e && s != 0, i.contains (s + 1) e with
  | true, true => some ⟨if goesDown tie i s e then s else s + 1, e⟩
  | true, false => some ⟨s, e⟩
  | false, true => some ⟨s + 1, e⟩
  | false, false => none

def search (tie : Tie) (i : Interval) (top : Int) : (fuel count : Nat) → Scaled
  | 0, count => ⟨floorOn i.value i.exponent (top - count), top - count⟩
  | fuel + 1, count =>
    match onGrid tie i (top - count) with
    | some s => s
    | none => search tie i top fuel (count + 1)

end Shortest

def shortest (tie : Tie) (b : Binary) : Scaled :=
  if b.mantissa = 0 then ⟨0, 0⟩
  else Shortest.search tie (Shortest.interval b) (Shortest.leading b.mantissa b.exponent) 17 0

def digits (n : Nat) : List Char :=
  Nat.toDigits 10 n

def zeros (n : Nat) : List Char :=
  List.replicate n '0'

namespace Scaled

/-- Leaves out trailing zeros, so that every written digit counts. -/
def trim (s : Scaled) : Scaled :=
  if s.coefficient = 0 then s else
  let ds := digits s.coefficient
  let kept := ds.reverse.dropWhile (· == '0')
  ⟨Nat.ofDigitChars 10 kept.reverse 0, s.exponent + (ds.length - kept.length : Nat)⟩

def magnitude (s : Scaled) : Int :=
  s.exponent + (digits s.coefficient).length - 1

def positional (s : Scaled) : List Char × List Char :=
  let ds := digits s.coefficient
  match s.exponent with
  | .ofNat e => (ds ++ zeros e, [])
  | .negSucc e =>
    let places := e + 1
    if ds.length ≤ places then (['0'], zeros (places - ds.length) ++ ds)
    else (ds.take (ds.length - places), ds.drop (ds.length - places))

end Scaled

/-- Positional text without an exponent, however long: whole numbers have no point, and ties go
up. -/
def plainText (x : Float) : String :=
  let b := Binary.ofFloat x
  let (whole, fraction) := (shortest .up b).trim.positional
  let sign := if b.negative then ['-'] else []
  String.ofList (sign ++ whole ++ if fraction.isEmpty then [] else '.' :: fraction)

end Verdict.Decimal
