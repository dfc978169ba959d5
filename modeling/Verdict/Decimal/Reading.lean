import Verdict.Decimal.Shortest

/-!
# Reading decimals

Decimal text to the nearest double. The digits may be any number and the exponent of any size.
-/

namespace Verdict.Decimal

def toFloat (m : Nat) (e : Int) : Float :=
  if m = 0 then 0
  else
    let top := (digits m).length + e
    if top > 310 then 1 / 0
    else if top < -330 then 0
    else Float.ofScientific m (decide (e < 0)) e.natAbs

def isDigit (c : Char) : Bool :=
  '0' ≤ c && c ≤ '9'

def natOf (ds : List Char) : Nat :=
  ds.foldl (fun n c => 10 * n + (c.toNat - '0'.toNat)) 0

/-- The sign in front, if any: whether it is a minus, and the rest. -/
def splitSign : List Char → Bool × List Char
  | '-' :: cs => (true, cs)
  | '+' :: cs => (false, cs)
  | cs => (false, cs)

/-- An unsigned exponent part with its mark: nothing stands for zero. -/
private def exponentOf : List Char → Option Int
  | [] => some 0
  | c :: cs =>
    if c == 'e' || c == 'E' then
      let (negative, ds) := splitSign cs
      if ds.isEmpty || !ds.all isDigit then none
      else some (if negative then -(natOf ds : Int) else natOf ds)
    else none

/-- Digits with an optional point and exponent; at least one digit stands beside the point. -/
private def magnitudeOf (cs : List Char) : Option Float :=
  let whole := cs.takeWhile isDigit
  let rest := cs.dropWhile isDigit
  let (fraction, tail) := match rest with
    | '.' :: more => (more.takeWhile isDigit, more.dropWhile isDigit)
    | _ => ([], rest)
  if whole.isEmpty && fraction.isEmpty then none
  else do
    let e ← exponentOf tail
    some (toFloat (natOf (whole ++ fraction)) (e - fraction.length))

private def named (cs : List Char) : Option Float :=
  match String.ofList (cs.map Char.toLower) with
  | "inf" | "infinity" => some (1 / 0)
  | "nan" => some (0 / 0)
  | _ => none

/-- Reads a whole text as a double: an optional sign, then digits or the name of a value that
is not finite. -/
def readFloat (cs : List Char) : Option Float :=
  let (negative, rest) := splitSign cs
  (magnitudeOf rest <|> named rest).map fun x => if negative then -x else x

/-- Reads a whole text as a signed 64-bit integer; a leading plus is allowed. -/
def readInt64 (cs : List Char) : Option Int :=
  let (negative, ds) := splitSign cs
  if ds.isEmpty || !ds.all isDigit then none
  else
    let n : Int := if negative then -(natOf ds : Int) else natOf ds
    if Word.isSigned n then some n else none

end Verdict.Decimal
