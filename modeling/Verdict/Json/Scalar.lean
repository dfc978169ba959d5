import Verdict.Decimal.Reading
import Verdict.Json.Text
import Verdict.Text.Blank

/-!
# What values stand for

Values taken as numbers, as text, as truth values and as lists. Records rarely keep to one kind
of value, so comparisons and steps look at a value through one of these views.
-/

namespace Verdict.Json

open Verdict.Text

/-! ## Numbers -/

private def numberOf (s : String) : Option Float :=
  let cs := trimChars s.toList
  if cs.isEmpty then none else (Decimal.readFloat cs).filter Float.isFinite

def number? : Json → Option Float
  | num n => some n.toFloat
  | str s => numberOf s
  | _ => none

/-- A value forced to a number: null, blank text and an empty list are zero, truth values are
zero and one, and a list of one element counts as its element. -/
def forcedNumber? : Json → Option Float
  | null => some 0
  | bool b => some (if b then 1 else 0)
  | num n => some n.toFloat
  | str s => if (trimChars s.toList).isEmpty then some 0 else numberOf s
  | arr [] => some 0
  | arr [item] => forcedNumber? item
  | arr _ => none
  | obj _ => none

/-! ## Text -/

def numberText (x : Float) : String :=
  if x.isFinite then
    let b := Decimal.Binary.ofFloat x
    if b.isWhole && b.truncate.natAbs < Decimal.tenTo 15 then toString b.truncate
    else Decimal.plainText x
  else if x.isNaN then "NaN"
  else if x < 0 then "-inf"
  else "inf"

mutual
/-- The text of a value: elements of a list are joined by commas, with nothing for null, and an
object is its JSON text. -/
def form : Json → String
  | null => "null"
  | bool b => if b then "true" else "false"
  | num n => numberText n.toFloat
  | str s => s
  | arr items => ",".intercalate (elementForms items)
  | obj members => text (obj members)

private def elementForms : List Json → List String
  | [] => []
  | v :: rest => (if v.isNull then "" else form v) :: elementForms rest
end

/-! ## Truth -/

def truthy : Json → Bool
  | null => false
  | bool b => b
  | num n => n.toFloat != 0
  | str s => !s.isEmpty
  | arr _ => true
  | obj _ => true

def isAbsent : Option Json → Bool
  | none => true
  | some v => v.isNull

/-! ## Lists -/

/-- The elements of a list; null has none, and any other value is its own element. -/
def elements : Json → List Json
  | arr items => items
  | null => []
  | v => [v]

mutual
def leaves : Json → List Json
  | arr items => allLeaves items
  | v => [v]

private def allLeaves : List Json → List Json
  | [] => []
  | v :: rest => leaves v ++ allLeaves rest
end

end Verdict.Json
