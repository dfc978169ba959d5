import Verdict.Json.Basic
import Verdict.Decimal.Reading

/-!
# Reading JSON text

Text is read in two steps. A document is the tree that the text spells, with members in the
order of the text and with numbers and strings that may have no value. Its value, if it has one,
puts members in order and lets the last of equal names count; lists and objects may nest to a
limited depth only.
-/

namespace Verdict

/-- The tree that a JSON text spells. A number beyond the doubles and a string with half of a
surrogate pair have no value. -/
inductive Document where
  | null
  | bool (b : Bool)
  | number (n : Option Number)
  | string (s : Option String)
  | array (items : List Document)
  | object (members : List (Option String × Document))

namespace Document

instance : Inhabited Document := ⟨null⟩

/-! ## Numbers -/

/-- An integer of 64 bits, signed or unsigned, keeps its kind; minus zero is a double. -/
def wholeNumber (negative : Bool) (n : Nat) : Option Number :=
  if negative then
    if n = 0 ∨ Word.signedLimit < n then none else some (.int (-n))
  else if n < Word.unsignedLimit then some (.int n) else none

def finiteNumber (x : Float) : Option Number :=
  if h : x.isFinite = true then some (.float x h) else none

/-- Puts digits behind a number as long as 64 bits hold it, and counts the digits left over. -/
def appendDigits (n : Nat) : List Char → Nat × Nat
  | [] => (n, 0)
  | c :: cs =>
    let more := 10 * n + (c.toNat - '0'.toNat)
    if more < Word.unsignedLimit then appendDigits more cs else (n, (c :: cs).length)

def mostPower : Nat := 308

def powerOfTen (n : Nat) : Float :=
  Decimal.toFloat 1 n

/-- Divides by the greatest power of ten so many times; nothing is left of zero. -/
def divided : Nat → Float → Float
  | 0, x => x
  | k + 1, x => if x == 0 then x else divided k (x / powerOfTen mostPower)

/-- A double times a power of ten. Each product and quotient on the way is rounded, so the result
may lie beside the nearest double; too large is infinite. -/
def scaled (x : Float) (e : Int) : Float :=
  if e < 0 then
    let k := (e.natAbs - 1) / mostPower
    divided k x / powerOfTen (e.natAbs - mostPower * k)
  else if e.natAbs ≤ mostPower then x * powerOfTen e.natAbs
  else if x == 0 then x else 1 / 0

def doubleOf (whole fraction : List Char) (e : Int) : Float :=
  let (n, dropped) := appendDigits 0 whole
  let (n, ignored) := appendDigits n fraction
  scaled (UInt64.ofNat n).toFloat (e + dropped - (fraction.length - ignored : Nat))

def wholeDigits (cs : List Char) : Option (List Char × List Char) :=
  match cs.span Decimal.isDigit with
  | ([], _) => none
  | ('0' :: _ :: _, _) => none
  | (ds, rest) => some (ds, rest)

def fractionDigits : List Char → Option (List Char × List Char)
  | '.' :: cs =>
    match cs.span Decimal.isDigit with
    | ([], _) => none
    | (ds, rest) => some (ds, rest)
  | cs => some ([], cs)

def exponentDigits : List Char → Option (Option Int × List Char)
  | c :: cs =>
    if c == 'e' || c == 'E' then
      let (negative, more) := Decimal.splitSign cs
      match more.span Decimal.isDigit with
      | ([], _) => none
      | (ds, rest) =>
        some (some (if negative then -(Decimal.natOf ds : Int) else Decimal.natOf ds), rest)
    else some (none, c :: cs)
  | [] => some (none, [])

def readNumber (cs : List Char) : Option (Document × List Char) := do
  let (negative, unsigned) := match cs with
    | '-' :: rest => (true, rest)
    | _ => (false, cs)
  let (whole, afterWhole) ← wholeDigits unsigned
  let (fraction, afterFraction) ← fractionDigits afterWhole
  let (exponent, rest) ← exponentDigits afterFraction
  let double := doubleOf whole fraction (exponent.getD 0)
  let asDouble := finiteNumber (if negative then -double else double)
  let value := if fraction.isEmpty && exponent.isNone then
      wholeNumber negative (Decimal.natOf whole) <|> asDouble
    else asDouble
  return (number value, rest)

/-! ## Strings -/

/-- A piece of a string: a character, or a 16-bit unit that an escape names. -/
inductive Piece where
  | char (c : Char)
  | unit (n : Nat)

def hexValue (c : Char) : Option Nat :=
  if '0' ≤ c ∧ c ≤ '9' then some (c.toNat - '0'.toNat)
  else if 'a' ≤ c ∧ c ≤ 'f' then some (c.toNat - 'a'.toNat + 10)
  else if 'A' ≤ c ∧ c ≤ 'F' then some (c.toNat - 'A'.toNat + 10)
  else none

def hexUnit (a b c d : Char) : Option Nat := do
  return ((← hexValue a) * 16 + (← hexValue b)) * 256 + ((← hexValue c) * 16 + (← hexValue d))

def escaped : Char → Option Char
  | '"' => some '"'
  | '\\' => some '\\'
  | '/' => some '/'
  | 'b' => some '\x08'
  | 'f' => some '\x0c'
  | 'n' => some '\n'
  | 'r' => some '\r'
  | 't' => some '\t'
  | _ => none

def readPieces : List Char → Option (List Piece × List Char)
  | [] => none
  | '"' :: rest => some ([], rest)
  | '\\' :: 'u' :: a :: b :: c :: d :: rest => do
    let n ← hexUnit a b c d
    let (pieces, rest) ← readPieces rest
    return (.unit n :: pieces, rest)
  | '\\' :: c :: rest => do
    let c ← escaped c
    let (pieces, rest) ← readPieces rest
    return (.char c :: pieces, rest)
  | c :: rest =>
    if c.toNat < 0x20 || c == '\\' then none
    else do
      let (pieces, rest) ← readPieces rest
      return (.char c :: pieces, rest)

def joinPieces : List Piece → Option (List Char)
  | [] => some []
  | .char c :: rest => (joinPieces rest).map (c :: ·)
  | .unit hi :: .unit lo :: rest =>
    if 0xD800 ≤ hi ∧ hi < 0xDC00 then
      if 0xDC00 ≤ lo ∧ lo < 0xE000 then
        (joinPieces rest).map (Char.ofNat (0x10000 + (hi - 0xD800) * 0x400 + (lo - 0xDC00)) :: ·)
      else none
    else if 0xDC00 ≤ hi ∧ hi < 0xE000 then none
    else (joinPieces (.unit lo :: rest)).map (Char.ofNat hi :: ·)
  | .unit n :: rest =>
    if 0xD800 ≤ n ∧ n < 0xE000 then none else (joinPieces rest).map (Char.ofNat n :: ·)

def readString (cs : List Char) : Option (Option String × List Char) := do
  let (pieces, rest) ← readPieces cs
  return ((joinPieces pieces).map String.ofList, rest)

/-! ## Trees -/

def skipBlank (cs : List Char) : List Char :=
  cs.dropWhile fun c => c == ' ' || c == '\n' || c == '\t' || c == '\r'

def word (cs : List Char) (name : String) (d : Document) : Option (Document × List Char) :=
  if name.toList.isPrefixOf cs then some (d, cs.drop name.length) else none

mutual
/-- One document and what follows it. Every step consumes a character, so the length of the
text is enough fuel. -/
def readTree : Nat → List Char → Option (Document × List Char)
  | 0, _ => none
  | fuel + 1, cs =>
    match skipBlank cs with
    | [] => none
    | '"' :: rest => (readString rest).map fun (s, rest) => (string s, rest)
    | '[' :: rest =>
      match skipBlank rest with
      | ']' :: rest => some (array [], rest)
      | rest => do
        let (items, rest) ← readItems fuel rest
        return (array items, rest)
    | '\x7b' :: rest =>
      match skipBlank rest with
      | '\x7d' :: rest => some (object [], rest)
      | rest => do
        let (members, rest) ← readMembers fuel rest
        return (object members, rest)
    | c :: rest =>
      if c == 't' then word (c :: rest) "true" (bool true)
      else if c == 'f' then word (c :: rest) "false" (bool false)
      else if c == 'n' then word (c :: rest) "null" null
      else readNumber (c :: rest)

def readItems : Nat → List Char → Option (List Document × List Char)
  | 0, _ => none
  | fuel + 1, cs => do
    let (item, rest) ← readTree fuel cs
    match skipBlank rest with
    | ',' :: rest =>
      let (items, rest) ← readItems fuel rest
      return (item :: items, rest)
    | ']' :: rest => return ([item], rest)
    | _ => none

def readMembers : Nat → List Char → Option (List (Option String × Document) × List Char)
  | 0, _ => none
  | fuel + 1, cs =>
    match skipBlank cs with
    | '"' :: rest => do
      let (name, rest) ← readString rest
      match skipBlank rest with
      | ':' :: rest =>
        let (value, rest) ← readTree fuel rest
        match skipBlank rest with
        | ',' :: rest =>
          let (members, rest) ← readMembers fuel rest
          return ((name, value) :: members, rest)
        | '\x7d' :: rest => return ([(name, value)], rest)
        | _ => none
      | _ => none
    | _ => none
end

def read (s : String) : Option Document :=
  let cs := s.toList
  match readTree (2 * cs.length + 2) cs with
  | some (d, rest) => if (skipBlank rest).isEmpty then some d else none
  | none => none

/-! ## Values -/

def maxNesting : Nat := 127

mutual
/-- The value of a document in which at most `depth` lists and objects nest. -/
def value? (depth : Nat) : Document → Option Json
  | null => some .null
  | bool b => some (.bool b)
  | number n => n.map .num
  | string s => s.map .str
  | array items =>
    if depth = 0 then none else (itemValues (depth - 1) items).map .arr
  | object members =>
    if depth = 0 then none
    else (memberValues (depth - 1) members).map fun ms => .obj (Members.gather ms)

def itemValues (depth : Nat) : List Document → Option (List Json)
  | [] => some []
  | d :: rest => do
    let v ← d.value? depth
    let vs ← itemValues depth rest
    return v :: vs

def memberValues (depth : Nat) :
    List (Option String × Document) → Option (List (String × Json))
  | [] => some []
  | (k, d) :: rest => do
    let k ← k
    let v ← d.value? depth
    let vs ← memberValues depth rest
    return (k, v) :: vs
end

end Document

def Json.read (s : String) : Option Json := do
  (← Document.read s).value? Document.maxNesting

end Verdict
