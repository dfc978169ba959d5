import Verdict.Text.CharSet

/-!
# Sets of characters as bytes

The encodings of the characters of a set, as sequences of ranges of bytes. A range of characters
is cut until the encodings of what is left differ in each byte on their own.
-/

namespace Verdict.Text.Utf8

abbrev ByteRange := Nat × Nat

def cutBefore (n : Nat) (r : Nat × Nat) : List (Nat × Nat) :=
  if r.1 < n ∧ n ≤ r.2 then [(r.1, n - 1), (n, r.2)] else [r]

/-- Cuts a range that lies in several blocks of one size, so that what is in the middle fills
its blocks. -/
def cutBlocks (size : Nat) (r : Nat × Nat) : List (Nat × Nat) :=
  let start := (r.1 + size - 1) / size * size
  let stop := (r.2 + 1) / size * size
  if r.1 / size = r.2 / size then [r]
  else (cutBefore start r).flatMap fun r =>
    if r.1 / size = r.2 / size then [r] else cutBefore stop r

def characters (r : Nat × Nat) : List (Nat × Nat) :=
  [(r.1, min r.2 0xD7FF), (max r.1 0xE000, r.2)].filter fun r => r.1 ≤ r.2

def bytes (n : Nat) : List Nat :=
  (String.utf8EncodeChar (Char.ofNat n)).map UInt8.toNat

/-- The encodings of a set: encodings of one length and, byte by byte, of one block at a time. -/
def sequences (s : CharSet) : List (List ByteRange) :=
  s.ranges.toList.flatMap characters
    |>.flatMap (cutBefore 0x80)
    |>.flatMap (cutBefore 0x800)
    |>.flatMap (cutBefore 0x10000)
    |>.flatMap fun r => (if r.2 < 0x80 then [r] else
      (cutBlocks 0x40 r).flatMap (cutBlocks 0x1000) |>.flatMap (cutBlocks 0x40000))
    |>.map fun r => (bytes r.1).zip (bytes r.2)

end Verdict.Text.Utf8
