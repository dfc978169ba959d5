import Verdict.Settings.Toml.Scalar
import Verdict.Settings.Toml.Tree

/-!
# Reading TOML

A configuration file: comments, headers that open tables, and keys with values. A value is a
scalar, a string, a list, or a table in braces.
-/

namespace Verdict.Toml

mutual
/-- A value, and what follows it. Every round consumes a character, so the length of the text is
enough fuel. -/
private def readValue : (fuel : Nat) → List Char → Option (Entry × List Char)
  | 0, _ => none
  | fuel + 1, cs =>
    match cs with
    | '[' :: rest => (readList fuel [] rest).map fun (es, rest) => (.list es, rest)
    | '\x7b' :: rest => (readMembers fuel [] rest).map fun (es, rest) => (.table es, rest)
    | '"' :: _ | '\x27' :: _ => (readQuoted true cs).map fun (s, rest) => (.text s, rest)
    | _ => readScalar cs

private def readList : (fuel : Nat) → (items : List Entry) → List Char →
    Option (List Entry × List Char)
  | 0, _, _ => none
  | fuel + 1, items, cs => do
    match ← skipLines? (cs.length + 1) cs with
    | ']' :: rest => return (items.reverse, rest)
    | cs =>
      let (e, rest) ← readValue fuel cs
      match ← skipLines? (rest.length + 1) rest with
      | ',' :: rest => readList fuel (e :: items) rest
      | ']' :: rest => return ((e :: items).reverse, rest)
      | _ => none

/-- The rest of a table in braces, which is closed when it ends; line breaks and comments may
stand between its members. -/
private def readMembers : (fuel : Nat) → Branches → List Char →
    Option (List (String × Entry) × List Char)
  | 0, _, _ => none
  | fuel + 1, members, cs => do
    match ← skipLines? (cs.length + 1) cs with
    | '\x7d' :: rest => return (Node.entries members, rest)
    | cs =>
      let (key, rest) ← readKey (cs.length + 1) cs
      match rest with
      | '=' :: rest =>
        let (e, rest) ← readValue fuel (skipBlanks rest)
        let members ← members.bind [] key e
        match ← skipLines? (rest.length + 1) rest with
        | ',' :: rest => readMembers fuel members rest
        | '\x7d' :: rest => return (Node.entries members, rest)
        | _ => none
      | _ => none
end

private def readHeader (cs : List Char) : Option (List String × List Char) := do
  let (path, rest) ← readKey (cs.length + 1) cs
  match rest with
  | ']' :: rest => return (path, rest)
  | _ => none

/-- The lines of a text, with the tables so far and the table that is open. Every line consumes
a character. -/
private def readLines : (fuel : Nat) → (current : List String) → Branches → List Char →
    Option Branches
  | 0, _, _, _ => none
  | fuel + 1, current, members, cs => do
    match ← skipLines? (cs.length + 1) cs with
    | [] => return members
    | '[' :: '[' :: cs =>
      let (path, rest) ← readHeader cs
      match rest with
      | ']' :: rest => readLines fuel path (← members.openAnother path) (← skipLine? rest)
      | _ => none
    | '[' :: cs =>
      let (path, rest) ← readHeader cs
      readLines fuel path (← members.openTable path) (← skipLine? rest)
    | cs =>
      let (key, rest) ← readKey (cs.length + 1) cs
      match rest with
      | '=' :: rest =>
        let (e, rest) ← readValue (rest.length + 1) (skipBlanks rest)
        readLines fuel current (← members.bind current key e) (← skipLine? rest)
      | _ => none

/-- The table that a text spells. A mark of the byte order may stand in front. -/
def read (s : String) : Option Entry :=
  let cs := match s.toList with
    | '\uFEFF' :: cs => cs
    | cs => cs
  (readLines (cs.length + 1) [] [] cs).map fun members => .table (Node.entries members)

end Verdict.Toml
