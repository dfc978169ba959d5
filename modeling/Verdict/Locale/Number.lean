import Verdict.Decimal.Fixed
import Verdict.Locale.Basic

/-!
# Numbers in a locale

A number is rounded to at most so many places, keeps at least so many, and is written with the
signs of a locale. A number that rounds to zero has no minus.
-/

namespace Verdict.Locale

open Decimal

/-- Cuts a list into pieces of a size, the last one perhaps shorter; given in reverse order of
the digits, so from the right. -/
def chunks (size : Nat) : (fuel : Nat) → List Char → List (List Char)
  | 0, _ => []
  | fuel + 1, ds =>
    if ds.isEmpty then [] else ds.take size :: chunks size fuel (ds.drop size)

def groups (g : Grouping) (ds : List Char) : List (List Char) :=
  let rev := ds.reverse
  let pieces := match g with
    | .none => [rev]
    | .thousands => chunks 3 ds.length rev
    | .indian => rev.take 3 :: chunks 2 ds.length (rev.drop 3)
  (pieces.map List.reverse).reverse

/-- The digits of a whole number with the separator of the locale. -/
def grouped (l : Locale) (ds : List Char) : List Char :=
  [l.separator].intercalate (groups l.grouping ds)

def groupingLimit : Nat := Word.unsignedLimit

def maxPlaces : Nat := 20

def trimZeros (least : Nat) (ds : List Char) : List Char :=
  let extra := ds.reverse.take (ds.length - least)
  ds.take (ds.length - (extra.takeWhile (· == '0')).length)

def writeNumber (l : Locale) (x : Float) (least most : Nat) : String :=
  let least := min least maxPlaces
  let most := min (max most least) maxPlaces
  let b := Binary.ofFloat x
  let (whole, fraction) := fixed b most
  let fraction := trimZeros least fraction
  let isZero := whole.all (· == '0') && fraction.all (· == '0')
  let sign := if b.negative && !isZero then l.minus.toList else []
  let integer := if Nat.ofDigitChars 10 whole 0 < groupingLimit then l.grouped whole else whole
  let tail := if fraction.isEmpty then [] else l.decimal :: fraction
  String.ofList (sign ++ integer ++ tail)

end Verdict.Locale
