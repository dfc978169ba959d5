/-!
# Sets of characters

A set of characters is kept as its maximal ranges of code points, in order, so that membership
is a binary search and the set operations are merges.
-/

namespace Verdict.Text

def entries (rows : List String) : List (List Char) :=
  rows.flatMap (·.toList.splitOn ' ')

/-- A set of characters, as ranges `(low, high)` in order with gaps between them. -/
structure CharSet where
  ranges : Array (Nat × Nat)
  deriving DecidableEq

namespace CharSet

def maxCode : Nat := 0x10FFFF

/-- Joins ranges that overlap or touch; they are given in the order of their low ends. -/
def join : List (Nat × Nat) → List (Nat × Nat)
  | [] => []
  | [r] => [r]
  | (a, b) :: (c, d) :: rest =>
    if c ≤ b + 1 then join ((a, max b d) :: rest)
    else (a, b) :: join ((c, d) :: rest)
  termination_by rs => rs.length

def ofRanges (rs : List (Nat × Nat)) : CharSet :=
  ⟨(join ((rs.filter fun r => r.1 ≤ r.2).mergeSort fun r s => r.1 ≤ s.1)).toArray⟩

def empty : CharSet := ⟨#[]⟩

def range (low high : Nat) : CharSet :=
  ofRanges [(low, high)]

def single (c : Char) : CharSet :=
  ⟨#[(c.toNat, c.toNat)]⟩

def all : CharSet := ⟨#[(0, maxCode)]⟩

def hexOf (cs : List Char) : Nat :=
  cs.foldl (fun n c => 16 * n + (if c.isDigit then c.toNat - 48 else c.toNat - 55)) 0

def ofTable (rows : List String) : CharSet :=
  ofRanges <| (entries rows).filterMap fun entry =>
    match entry.splitOn '-' with
    | [a] => if a.isEmpty then none else some (hexOf a, hexOf a)
    | [a, b] => some (hexOf a, hexOf b)
    | _ => none

private def search (rs : Array (Nat × Nat)) (n : Nat) : (fuel low high : Nat) → Bool
  | 0, _, _ => false
  | fuel + 1, low, high =>
    if low < high then
      let mid := (low + high) / 2
      let (a, b) := rs.getD mid (0, 0)
      if n < a then search rs n fuel low mid
      else if b < n then search rs n fuel (mid + 1) high
      else true
    else false

/-- Each step of the search halves what is left, so the number of ranges is enough fuel. -/
def contains (s : CharSet) (c : Char) : Bool :=
  search s.ranges c.toNat (s.ranges.size + 1) 0 s.ranges.size

def isEmpty (s : CharSet) : Bool :=
  s.ranges.isEmpty

def single? (s : CharSet) : Option Char :=
  match s.ranges.toList with
  | [(a, b)] => if a = b then some (Char.ofNat a) else none
  | _ => none

def isAscii (s : CharSet) : Bool :=
  s.ranges.all fun r => r.2 < 0x80

def union (s t : CharSet) : CharSet :=
  ofRanges (s.ranges.toList ++ t.ranges.toList)

instance : Union CharSet := ⟨union⟩

def unions (sets : List CharSet) : CharSet :=
  ofRanges (sets.flatMap (·.ranges.toList))

private def isSurrogate (n : Nat) : Bool :=
  0xD800 ≤ n && n ≤ 0xDFFF

private def between (low high : Nat) : List (Nat × Nat) :=
  let low := if isSurrogate low then 0xE000 else low
  let high := if isSurrogate high then 0xD7FF else high
  if low ≤ high then [(low, high)] else []

private def gaps (start : Nat) : List (Nat × Nat) → List (Nat × Nat)
  | [] => between start maxCode
  | (a, b) :: rest =>
    if start < a then between start (a - 1) ++ gaps (b + 1) rest else gaps (b + 1) rest

def complement (s : CharSet) : CharSet :=
  ⟨(gaps 0 s.ranges.toList).toArray⟩

def inter (s t : CharSet) : CharSet :=
  (s.complement ∪ t.complement).complement

instance : Inter CharSet := ⟨inter⟩

def diff (s t : CharSet) : CharSet :=
  s ∩ t.complement

instance : SDiff CharSet := ⟨diff⟩

def symmDiff (s t : CharSet) : CharSet :=
  (s \ t) ∪ (t \ s)

end CharSet

end Verdict.Text
