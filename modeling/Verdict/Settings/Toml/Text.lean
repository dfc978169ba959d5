import Verdict.Decimal.Reading

/-!
# Pieces of a TOML text

Blanks, comments and line breaks, strings in their four forms, and keys.
-/

namespace Verdict.Toml

/-! ## Lines -/

private def isBlank (c : Char) : Bool :=
  c == ' ' || c == '\t'

def skipBlanks (cs : List Char) : List Char :=
  cs.dropWhile isBlank

private def isControl (c : Char) : Bool :=
  (c.toNat < 0x20 && c != '\t') || c.toNat == 0x7F

def skipBreak? : List Char → Option (List Char)
  | '\n' :: rest => some rest
  | '\r' :: '\n' :: rest => some rest
  | _ => none

private def skipComment? (cs : List Char) : Option (List Char) :=
  match cs with
  | '#' :: rest =>
    let after := rest.dropWhile (!isControl ·)
    if after.isEmpty || (skipBreak? after).isSome then some after else none
  | cs => some cs

def skipLine? (cs : List Char) : Option (List Char) := do
  match ← skipComment? (skipBlanks cs) with
  | [] => some []
  | rest => skipBreak? rest

def skipLines? : (fuel : Nat) → List Char → Option (List Char)
  | 0, _ => none
  | fuel + 1, cs => do
    let rest ← skipComment? (skipBlanks cs)
    match skipBreak? rest with
    | some rest => skipLines? fuel rest
    | none => some rest

/-! ## Strings -/

private def hexDigit? (c : Char) : Option Nat :=
  if Decimal.isDigit c then some (c.toNat - '0'.toNat)
  else if 'a' ≤ c ∧ c ≤ 'f' then some (c.toNat - 'a'.toNat + 10)
  else if 'A' ≤ c ∧ c ≤ 'F' then some (c.toNat - 'A'.toNat + 10)
  else none

def natOfBase? (base : Nat) (ds : List Char) : Option Nat :=
  ds.foldlM (fun n c => do
    let d ← hexDigit? c
    if d < base then some (base * n + d) else none) 0

private def scalar? (ds : List Char) : Option Char := do
  let n ← natOfBase? 16 ds
  if n.isValidChar then some (Char.ofNat n) else none

private def escaped? : Char → Option Char
  | 'b' => some '\x08'
  | 'e' => some '\x1b'
  | 't' => some '\t'
  | 'n' => some '\n'
  | 'f' => some '\x0c'
  | 'r' => some '\r'
  | '"' => some '"'
  | '\\' => some '\\'
  | _ => none

private def readEscape : List Char → Option (Char × List Char)
  | 'x' :: a :: b :: rest => return (← scalar? [a, b], rest)
  | 'u' :: a :: b :: c :: d :: rest => return (← scalar? [a, b, c, d], rest)
  | 'U' :: a :: b :: c :: d :: e :: f :: g :: h :: rest =>
    return (← scalar? [a, b, c, d, e, f, g, h], rest)
  | c :: rest => return (← escaped? c, rest)
  | [] => none

/-- Blanks and line breaks in front of the next text of a string. -/
private def skipGap (cs : List Char) : List Char :=
  cs.dropWhile fun c => isBlank c || c == '\n' || c == '\r'

/-- A quote that ends a string of several lines; up to two quotes in front of it belong to the
string. -/
private def closing? (quote : Char) (cs : List Char) : Option (List Char × List Char) :=
  let count := (cs.takeWhile (· == quote)).length
  if count < 3 then none
  else
    let inside := min (count - 3) 2
    some (List.replicate inside quote, cs.drop (inside + 3))

/-- A string up to its closing quote, and what follows it. Strings between double quotes have
escapes, and those between three quotes have line breaks. Every round consumes a character, so
the length of the text is enough fuel. -/
private def readString (quote : Char) (long : Bool) : (fuel : Nat) → List Char →
    Option (List Char × List Char)
  | 0, _ => none
  | fuel + 1, cs =>
    let goOn := fun (c : Char) (rest : List Char) => do
      let (inside, rest) ← readString quote long fuel rest
      return (c :: inside, rest)
    match if long then closing? quote cs else none with
    | some ended => some ended
    | none =>
      match cs with
      | [] => none
      | '\\' :: rest =>
        if quote == '\x27' then goOn '\\' rest
        else if long && (skipBreak? (skipBlanks rest)).isSome then
          readString quote long fuel (skipGap rest)
        else do
          let (c, rest) ← readEscape rest
          goOn c rest
      | c :: rest =>
        if c == quote && !long then some ([], rest)
        else match (if long then skipBreak? cs else none) with
          | some rest => goOn '\n' rest
          | none => if isControl c then none else goOn c rest

def readQuoted (severalLines : Bool) (cs : List Char) : Option (String × List Char) := do
  let (quote, rest) ← match cs with
    | '"' :: rest => some ('"', rest)
    | '\x27' :: rest => some ('\x27', rest)
    | _ => none
  let (inside, rest) ← match severalLines, rest with
    | true, a :: b :: more =>
      if a == quote && b == quote then
        -- a line break right behind the opening does not count
        readString quote true (more.length + 1) ((skipBreak? more).getD more)
      else readString quote false (rest.length + 1) rest
    | _, rest => readString quote false (rest.length + 1) rest
  return (String.ofList inside, rest)

/-! ## Keys -/

private def isBare (c : Char) : Bool :=
  c.isAlphanum || c == '_' || c == '-'

private def readPart (cs : List Char) : Option (String × List Char) :=
  match cs.span isBare with
  | ([], _) => readQuoted false cs
  | (name, rest) => some (String.ofList name, rest)

/-- A key with parts between points, and what follows it. Every part consumes a character, so
the length of the text is enough fuel. -/
def readKey : (fuel : Nat) → List Char → Option (List String × List Char)
  | 0, _ => none
  | fuel + 1, cs => do
    let (part, rest) ← readPart (skipBlanks cs)
    match skipBlanks rest with
    | '.' :: rest =>
      let (parts, rest) ← readKey fuel rest
      return (part :: parts, rest)
    | rest => return ([part], rest)

end Verdict.Toml
