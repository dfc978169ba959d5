import Verdict.Decimal.Power

/-!
# Binary floating point as exact arithmetic

A finite double is `± mantissa · 2 ^ exponent`. Everything that turns doubles into
digits or whole numbers goes through this view, so it can be stated over `Nat` and `Int`.
-/

namespace Verdict.Decimal

/-- The number `± mantissa · 2 ^ exponent`. -/
structure Binary where
  negative : Bool
  mantissa : Nat
  exponent : Int
  deriving DecidableEq, Repr

namespace Binary

/-- The parts of a finite double; infinities and NaN have no meaning here. -/
def ofFloat (x : Float) : Binary :=
  let bits := x.toBits.toNat
  let field := bits / twoTo 52 % twoTo 11
  let fraction := bits % twoTo 52
  { negative := bits / twoTo 63 == 1
    mantissa := if field = 0 then fraction else twoTo 52 + fraction
    exponent := (max field 1 : Nat) - 1075 }

/-- The value as a fraction: numerator over a denominator that is a power of two. -/
def ratio (b : Binary) : Nat × Nat :=
  match b.exponent with
  | .ofNat e => (b.mantissa * twoTo e, 1)
  | .negSucc e => (b.mantissa, twoTo (e + 1))

private def signed (b : Binary) (n : Nat) : Int :=
  if b.negative then -(n : Int) else n

def truncate (b : Binary) : Int :=
  b.signed (b.ratio.1 / b.ratio.2)

def roundHalfAway (b : Binary) : Int :=
  b.signed ((2 * b.ratio.1 + b.ratio.2) / (2 * b.ratio.2))

def isWhole (b : Binary) : Bool :=
  b.ratio.1 % b.ratio.2 == 0

end Binary

/-- The whole part of a finite double, as a whole number of any size. -/
def truncate (x : Float) : Int :=
  (Binary.ofFloat x).truncate

end Verdict.Decimal
