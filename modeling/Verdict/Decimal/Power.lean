/-!
# Powers and limits

Powers of two and of ten, and the ranges of the integers of 64 bits.
-/

namespace Verdict

namespace Decimal

def twoTo (n : Nat) : Nat :=
  Nat.pow 2 n

def tenTo (n : Nat) : Nat :=
  Nat.pow 10 n

end Decimal

namespace Word

def signedLimit : Nat := 0x8000000000000000

def unsignedLimit : Nat := 0x10000000000000000

def isSigned (n : Int) : Bool :=
  decide (-(signedLimit : Int) ≤ n) && decide (n < signedLimit)

end Word

end Verdict
