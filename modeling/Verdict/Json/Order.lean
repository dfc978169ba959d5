import Verdict.Json.Scalar

/-!
# Comparing values

Strict and loose equality, and the order that puts numbers before text comparison.
-/

namespace Verdict.Json

/-- Strict equality: two numbers are equal when they denote the same double; all other values
when they are the same document. -/
def equal : Json → Json → Bool
  | num a, num b => a.toFloat == b.toFloat
  | a, b => a.same b

private def countBool : Json → Json
  | bool b => ofInt (if b then 1 else 0)
  | v => v

private def forcedEqual (a b : Json) : Bool :=
  match a.forcedNumber?, b.forcedNumber? with
  | some x, some y => x == y
  | _, _ => false

private def textAlike (s : String) : Json → Bool
  | str t => s == t
  | num n => forcedEqual (str s) (num n)
  | _ => false

/-- Loose equality: numbers and text that spells them are equal, truth values count as numbers,
and a list or an object is compared with a scalar by its text. -/
def alike (a b : Json) : Bool :=
  a.equal b ||
    match countBool a, countBool b with
    | num m, num n => (num m).equal (num n)
    | num m, str s => forcedEqual (num m) (str s)
    | str s, num n => forcedEqual (str s) (num n)
    | arr items, str s => textAlike (form (arr items)) (str s)
    | arr items, num n => textAlike (form (arr items)) (num n)
    | obj members, str s => textAlike (form (obj members)) (str s)
    | obj members, num n => textAlike (form (obj members)) (num n)
    | str s, arr items => textAlike (form (arr items)) (str s)
    | num m, arr items => textAlike (form (arr items)) (num m)
    | str s, obj members => textAlike (form (obj members)) (str s)
    | num m, obj members => textAlike (form (obj members)) (num m)
    | _, _ => false

private def floatOrder (x y : Float) : Ordering :=
  if x < y then .lt else if y < x then .gt else .eq

private def textOrder (s t : String) : Ordering :=
  if s < t then .lt else if t < s then .gt else .eq

/-- Two numbers by their size; otherwise by text, character by character. -/
def order (a b : Json) : Ordering :=
  match a.number?, b.number? with
  | some x, some y => floatOrder x y
  | _, _ => textOrder a.form b.form

end Verdict.Json
