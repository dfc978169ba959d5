import Verdict.Decimal.Shortest

/-!
# A fixed number of places

The exact value of a double, rounded to a given number of decimal places; an exact half goes
to the even neighbour.
-/

namespace Verdict.Decimal

def roundHalfEven (num den : Nat) : Nat :=
  let q := num / den
  let r := num % den
  if 2 * r < den then q
  else if den < 2 * r then q + 1
  else if q % 2 = 0 then q else q + 1

def padded (width n : Nat) : List Char :=
  List.replicate (width - (digits n).length) '0' ++ digits n

/-- Integer digits and exactly `places` fraction digits of the magnitude of `b`. -/
def fixed (b : Binary) (places : Nat) : List Char × List Char :=
  let n := roundHalfEven (b.ratio.1 * tenTo places) b.ratio.2
  (digits (n / tenTo places), if places = 0 then [] else padded places (n % tenTo places))

end Verdict.Decimal
