import Verdict.Json.Basic
import Verdict.Decimal.Reading

/-!
# Dotted names

A simpler way to name one place in a value: names and indices between dots. Brackets may stand
around an index.
-/

namespace Verdict.Json

open Decimal

/-- An unsigned 64-bit number; a plus may stand in front. -/
def readIndex (s : String) : Option Nat :=
  let ds := match s.toList with
    | '+' :: ds => ds
    | ds => ds
  if ds.isEmpty || !ds.all isDigit || Word.unsignedLimit ≤ natOf ds then none
  else some (natOf ds)

/-- The parts between dots, where an opening bracket counts as a dot and a closing one does not
count; empty parts are left out. -/
def lookupParts (path : String) : List String :=
  let cs := (path.toList.map fun c => if c == '[' then '.' else c).filter (· != ']')
  ((cs.splitOn '.').filter (!·.isEmpty)).map String.ofList

def lookupPart (value : Json) (name : String) : Option Json :=
  match value with
  | obj members => Members.value? name members
  | arr items => do items[← readIndex name]?
  | _ => none

def lookup (value : Json) (path : String) : Option Json :=
  (lookupParts path).foldlM lookupPart value

end Verdict.Json
