import Verdict.Json.Scalar
import Verdict.Text.Casing

/-!
# Entries of a configuration

A configuration is a table of entries, which are scalars, lists or tables. Tables are laid over one
another: entries of both are merged, and anything else takes the place of what was there. A scalar
of one kind can be taken for another where its meaning is clear.
-/

namespace Verdict

/-- A scalar, a list, a table, or nothing, which fills up a list. -/
inductive Entry where
  | nothing
  | flag (b : Bool)
  | whole (n : Int)
  | fraction (x : Float)
  | text (s : String)
  | list (items : List Entry)
  | table (entries : List (String × Entry))

namespace Entry

instance : Inhabited Entry := ⟨table []⟩

/-! ## Tables -/

/-- The entries of a table; nothing else has any. -/
def entries : Entry → List (String × Entry)
  | table es => es
  | _ => []

def entry? (e : Entry) (name : String) : Option Entry :=
  Members.value? name e.entries

mutual
def laidOver (below : Entry) : Entry → Entry
  | table es => allOver (table below.entries) es
  | e => e

private def allOver (below : Entry) : List (String × Entry) → Entry
  | [] => below
  | (name, e) :: rest =>
    allOver (table (Members.put name (laidOver ((below.entry? name).getD (table [])) e)
      below.entries)) rest
end

/-! ## Paths -/

/-- One way down from an entry: a name of a table, or an index of a list. Indices below zero count
from its end. -/
inductive Hop where
  | name (s : String)
  | index (i : Int)

/-- The items of a list; nothing else has any. -/
def items : Entry → List Entry
  | list es => es
  | _ => []

/-- The items of a list that has an index, with nothing in the places that it lacked, and how many
are before it. A list that is too short for an index from its end grows at its start. -/
def reaching (i : Int) (es : List Entry) : List Entry × Nat :=
  if 0 ≤ i then (es ++ List.replicate (i.toNat + 1 - es.length) nothing, i.toNat)
  else (List.replicate (i.natAbs - es.length) nothing ++ es, es.length - i.natAbs)

/-- Lays an entry over what is at the end of a path; what is no table or list on the way gives
way to one. -/
def place (path : List Hop) (e below : Entry) : Entry :=
  match path with
  | [] => laidOver below e
  | .name name :: rest =>
    table (Members.put name (place rest e ((below.entry? name).getD nothing)) below.entries)
  | .index i :: rest =>
    let (es, n) := reaching i below.items
    list (es.modify n (place rest e))

private def isNameChar (c : Char) : Bool :=
  c.isAlphanum || c == '_' || c == '-'

private def isMargin (c : Char) : Bool :=
  c == ' ' || c == '\t'

private def indexHop? (s : String) : Option Hop :=
  match s.toList.reverse with
  | ']' :: cs =>
    let digits := ((cs.dropWhile isMargin).reverse).dropWhile isMargin
    if digits.head? == some '+' then none else (Decimal.readInt64 digits).map .index
  | _ => none

private def partHops? (part : String) : Option (List Hop) :=
  match part.splitOn "[" with
  | [] => none
  | name :: indices =>
    if name.isEmpty || !name.all isNameChar then none
    else (indices.mapM indexHop?).map (.name name :: ·)

/-- The path that the name of an outermost entry spells, with points between its parts. A name
that spells none is a part by itself. -/
def pathOf (name : String) : List Hop :=
  match (name.splitOn ".").mapM partHops? with
  | some parts => parts.flatten
  | none => [.name name]

def layer (root e : Entry) : Entry :=
  e.entries.foldl (fun root (name, e) => place (pathOf name) e root) root

/-! ## Scalars -/

private def countOf (s : String) : Option Nat :=
  let ds := match s.toList with
    | '+' :: ds => ds
    | ds => ds
  if ds.isEmpty || !ds.all Decimal.isDigit then none
  else if Decimal.natOf ds < Word.unsignedLimit then some (Decimal.natOf ds) else none

private def flagOf (s : String) : Option Bool :=
  match Text.toLower s with
  | "true" | "on" | "yes" => some true
  | "false" | "off" | "no" => some false
  | _ => none

def count? : Entry → Option Nat
  | flag b => some (if b then 1 else 0)
  | whole n => if 0 ≤ n then some n.toNat else none
  | fraction x =>
    if x.isNaN then some 0
    else if x.isFinite then
      some (min ((Decimal.Binary.ofFloat x).roundHalfAway).toNat (Word.unsignedLimit - 1))
    else some (if x < 0 then 0 else Word.unsignedLimit - 1)
  | text s =>
    match flagOf s with
    | some b => some (if b then 1 else 0)
    | none => countOf s
  | nothing | list _ | table _ => none

def flag? : Entry → Option Bool
  | flag b => some b
  | whole n => some (n != 0)
  | fraction x => some (x != 0)
  | text s =>
    match s with
    | "1" => some true
    | "0" => some false
    | _ => flagOf s
  | nothing | list _ | table _ => none

def text? : Entry → Option String
  | flag b => some (if b then "true" else "false")
  | whole n => some (toString n)
  | fraction x => some (Json.numberText x)
  | text s => some s
  | nothing | list _ | table _ => none

/-- The scalar that a plain text spells: a truth value, a number or itself. -/
def ofText (s : String) : Entry :=
  match Text.toLower s with
  | "true" => flag true
  | "false" => flag false
  | _ =>
    match Decimal.readInt64 s.toList with
    | some n => whole n
    | none =>
      match Decimal.readFloat s.toList with
      | some x => fraction x
      | none => text s

end Entry

end Verdict
