import Verdict.Json.Basic
import Verdict.Decimal.Shortest

/-!
# The text of a JSON value

Compact text without spaces, and text laid out over lines. Members are written in the order in
which they stand. Doubles have the shortest digits that read back, with an exponent when they
are very small or very large.
-/

namespace Verdict

namespace Number

/-- Digits of the leading exponents `-5` to `15` are written in place and always with a
fraction; others with one digit before the point and a signed exponent. Ties go to even. -/
def floatText (x : Float) : String :=
  let b := Decimal.Binary.ofFloat x
  let s := (Decimal.shortest .even b).trim
  let e := s.magnitude
  let sign := if b.negative then "-" else ""
  if b.mantissa = 0 then sign ++ "0.0"
  else if -5 ≤ e ∧ e < 16 then
    let (whole, fraction) := s.positional
    sign ++ String.ofList whole ++ "." ++
      (if fraction.isEmpty then "0" else String.ofList fraction)
  else
    let point := match Decimal.digits s.coefficient with
      | d :: e :: rest => d :: '.' :: e :: rest
      | ds => ds
    sign ++ String.ofList point ++ "e" ++ (if e < 0 then "-" else "+") ++ toString e.natAbs

def text : Number → String
  | int n => toString n
  | float x _ => floatText x

end Number

namespace Json

def hexDigit (n : Nat) : Char :=
  (Nat.toDigits 16 n).headD '0'

def escape (c : Char) : List Char :=
  match c with
  | '"' => ['\\', '"']
  | '\\' => ['\\', '\\']
  | '\x08' => ['\\', 'b']
  | '\x0c' => ['\\', 'f']
  | '\n' => ['\\', 'n']
  | '\r' => ['\\', 'r']
  | '\t' => ['\\', 't']
  | c =>
    let n := c.toNat
    if n < 0x20 then ['\\', 'u', '0', '0', hexDigit (n / 16), hexDigit (n % 16)] else [c]

def quoted (s : String) : String :=
  String.ofList ('"' :: s.toList.flatMap escape ++ ['"'])

mutual
def text : Json → String
  | null => "null"
  | bool true => "true"
  | bool false => "false"
  | num n => n.text
  | str s => quoted s
  | arr items => "[" ++ ",".intercalate (itemTexts items) ++ "]"
  | obj members => "\x7b" ++ ",".intercalate (memberTexts members) ++ "\x7d"

def itemTexts : List Json → List String
  | [] => []
  | v :: rest => v.text :: itemTexts rest

def memberTexts : List (String × Json) → List String
  | [] => []
  | (k, v) :: rest => (quoted k ++ ":" ++ v.text) :: memberTexts rest
end

private def line (depth : Nat) : String :=
  String.ofList ('\n' :: List.replicate (2 * depth) ' ')

private def block (opening closing : String) (depth : Nat) (parts : List String) : String :=
  if parts.isEmpty then opening ++ closing
  else
    opening ++ line (depth + 1) ++ ("," ++ line (depth + 1)).intercalate parts ++
      line depth ++ closing

mutual
/-- Text over lines, two spaces for each level; empty lists and objects stay on one line. -/
def layout (depth : Nat) : Json → String
  | arr items => block "[" "]" depth (itemLayouts (depth + 1) items)
  | obj members => block "\x7b" "\x7d" depth (memberLayouts (depth + 1) members)
  | v => v.text

private def itemLayouts (depth : Nat) : List Json → List String
  | [] => []
  | v :: rest => v.layout depth :: itemLayouts depth rest

private def memberLayouts (depth : Nat) : List (String × Json) → List String
  | [] => []
  | (k, v) :: rest => (quoted k ++ ": " ++ v.layout depth) :: memberLayouts depth rest
end

end Json

end Verdict
