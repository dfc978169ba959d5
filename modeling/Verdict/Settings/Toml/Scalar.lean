import Verdict.Settings.Entry
import Verdict.Settings.Toml.Text

/-!
# Scalars of a TOML text

Truth values, integers, fractions, dates and times, as they are written without quotes. A date or
a time becomes the text that writes it.
-/

namespace Verdict.Toml

/-! ## Numbers -/

private def ungrouped? : List Char → Option (List Char)
  | [] => none
  | [d] => if d == '_' then none else some [d]
  | d :: '_' :: rest => if d == '_' then none else (ungrouped? rest).map (d :: ·)
  | d :: rest => if d == '_' then none else (ungrouped? rest).map (d :: ·)

private def digits? (cs : List Char) : Option (List Char) := do
  let ds ← ungrouped? cs
  if ds.all Decimal.isDigit then some ds else none

/-- Decimal digits of which no zero stands in front of others. -/
private def wholeDigits? (cs : List Char) : Option (List Char) := do
  let ds ← digits? cs
  if ds.length > 1 && ds.head? == some '0' then none else some ds

/-- An integer of 64 bits: decimal with a sign, or without one in another base. -/
private def integer? (cs : List Char) : Option Int :=
  let based := fun (base : Nat) (ds : List Char) => do
    let n : Int := ← natOfBase? base (← ungrouped? ds)
    if Word.isSigned n then some n else none
  match cs with
  | '0' :: 'x' :: ds => based 16 ds
  | '0' :: 'o' :: ds => based 8 ds
  | '0' :: 'b' :: ds => based 2 ds
  | _ => do
    let (negative, unsigned) := Decimal.splitSign cs
    let ds ← wholeDigits? unsigned
    Decimal.readInt64 (if negative then '-' :: ds else ds)

private def isMark (c : Char) : Bool :=
  c == 'e' || c == 'E'

/-- A fraction: digits with a point, an exponent or both, or the name of a value that is not
finite. -/
private def fraction? (cs : List Char) : Option Float :=
  let (negative, unsigned) := Decimal.splitSign cs
  let signed := fun (x : Float) => if negative then -x else x
  match unsigned with
  | ['i', 'n', 'f'] => some (signed (1 / 0))
  | ['n', 'a', 'n'] => some (signed (0 / 0))
  | _ => do
    let (mantissa, exponent) := unsigned.span (!isMark ·)
    let (whole, point) := mantissa.span (· != '.')
    let ds ← wholeDigits? whole
    let places ← match point with
      | [] => if exponent.isEmpty then none else some []
      | _ :: places => (digits? places).map ('.' :: ·)
    let exponent ← match exponent with
      | [] => some []
      | mark :: power =>
        let (below, unsigned) := Decimal.splitSign power
        (digits? unsigned).map fun ds => mark :: (if below then '-' :: ds else ds)
    let x ← Decimal.readFloat (ds ++ places ++ exponent)
    if x.isFinite then some (signed x) else none

/-! ## Dates and times -/

private def twoDigits? (least most : Nat) (a b : Char) : Option Unit :=
  let n := Decimal.natOf [a, b]
  if Decimal.isDigit a && Decimal.isDigit b && least ≤ n && n ≤ most then some () else none

private def monthLength (year month : Nat) : Nat :=
  match month with
  | 2 => if year % 4 = 0 ∧ (year % 100 ≠ 0 ∨ year % 400 = 0) then 29 else 28
  | 4 | 6 | 9 | 11 => 30
  | _ => 31

private def date? : List Char → Option (List Char × List Char)
  | a :: b :: c :: d :: '-' :: e :: f :: '-' :: g :: h :: rest => do
    guard ([a, b, c, d].all Decimal.isDigit)
    twoDigits? 1 12 e f
    twoDigits? 1 (monthLength (Decimal.natOf [a, b, c, d]) (Decimal.natOf [e, f])) g h
    return ([a, b, c, d, '-', e, f, '-', g, h], rest)
  | _ => none

/-- The text of a part of a second, and what follows it; nine places are kept, without zeros at
their end. -/
private def places? (cs : List Char) : Option (List Char × List Char) :=
  match cs with
  | '.' :: more =>
    let places := more.takeWhile Decimal.isDigit
    let kept := ((places.take 9).reverse.dropWhile (· == '0')).reverse
    if places.isEmpty then none
    else some (if kept.isEmpty then [] else '.' :: kept, more.dropWhile Decimal.isDigit)
  | _ => some ([], cs)

private def time? : List Char → Option (List Char × List Char)
  | a :: b :: ':' :: c :: d :: rest => do
    twoDigits? 0 23 a b
    twoDigits? 0 59 c d
    match rest with
    | ':' :: e :: f :: rest =>
      twoDigits? 0 60 e f
      let (places, rest) ← places? rest
      return ([a, b, ':', c, d, ':', e, f] ++ places, rest)
    | rest => return ([a, b, ':', c, d], rest)
  | _ => none

private def offset? : List Char → Option (List Char)
  | [] => some []
  | ['Z'] | ['z'] => some ['Z']
  | [sign, a, b, ':', c, d] => do
    if sign != '+' && sign != '-' then none
    twoDigits? 0 23 a b
    twoDigits? 0 59 c d
    let sign := if [a, b, c, d].all (· == '0') then '+' else sign
    return [sign, a, b, ':', c, d]
  | _ => none

private def moment? (cs : List Char) : Option String :=
  match date? cs with
  | some (date, []) => some (String.ofList date)
  | some (date, mark :: rest) => do
    if mark != 'T' && mark != 't' && mark != ' ' then none
    let (time, rest) ← time? rest
    return String.ofList (date ++ 'T' :: time ++ (← offset? rest))
  | none =>
    match time? cs with
    | some (time, []) => some (String.ofList time)
    | _ => none

/-! ## Words -/

private def isWordChar (c : Char) : Bool :=
  c.isAlphanum || c == '_' || c == '-' || c == '+' || c == '.' || c == ':'

/-- A scalar without quotes, and what follows it. One blank may stand between a date and a
time. -/
def readScalar (cs : List Char) : Option (Entry × List Char) :=
  let (word, rest) := cs.span isWordChar
  let (word, rest) := match date? word, rest with
    | some (_, []), ' ' :: d :: more =>
      if Decimal.isDigit d then
        let (time, rest) := (d :: more).span isWordChar
        (word ++ ' ' :: time, rest)
      else (word, rest)
    | _, _ => (word, rest)
  let entry : Option Entry := match String.ofList word with
    | "true" => some (.flag true)
    | "false" => some (.flag false)
    | _ => (integer? word).map .whole <|> (fraction? word).map .fraction
      <|> (moment? word).map .text
  entry.map fun e => (e, rest)

end Verdict.Toml
