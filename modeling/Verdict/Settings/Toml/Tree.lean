import Verdict.Settings.Entry

/-!
# Tables under construction

The tables of a TOML text while it is read. A table can be opened by a header once, and a key can
be bound once; how a table came to be decides what may still be added to it.
-/

namespace Verdict.Toml

/-- How a table came to be: by a header of its own, on the way to another one, or as the front of
a key. -/
inductive Origin where
  | header
  | passed
  | key
  deriving DecidableEq

/-- A value, a table, or several tables under one name, of which the last is still open. -/
inductive Node where
  | value (e : Entry)
  | table (origin : Origin) (members : List (String × Node))
  | tables (before : List Entry) (last : List (String × Node))

abbrev Branches := List (String × Node)

namespace Node

mutual
def entry : Node → Entry
  | value e => e
  | table _ members => .table (entries members)
  | tables before last => .list (before ++ [.table (entries last)])

def entries : List (String × Node) → List (String × Entry)
  | [] => []
  | (name, node) :: rest => Members.put name node.entry (entries rest)
end

end Node

namespace Branches

/-- Changes the table at the end of a path. Tables that are missing on the way are made; those
that are there may be walked through if they came to be in an allowed way. -/
private def change (make : Origin) (walks : Origin → Bool) (f : Branches → Option Branches) :
    (path : List String) → Branches → Option Branches
  | [], members => f members
  | name :: path, members => do
    let node ← match Members.value? name members with
      | none => return Members.put name (.table make (← change make walks f path [])) members
      | some node => pure node
    match node with
    | .table origin inner =>
      if walks origin then
        return Members.put name (.table origin (← change make walks f path inner)) members
      else none
    | .tables before last =>
      if walks .header then
        return Members.put name (.tables before (← change make walks f path last)) members
      else none
    | .value _ => none

private def within (path : List String) (f : Branches → Option Branches)
    (members : Branches) : Option Branches :=
  change .passed (fun _ => true) f path members

def openTable (path : List String) (members : Branches) : Option Branches := do
  let name ← path.getLast?
  within path.dropLast (fun inner =>
    match Members.value? name inner with
    | none => some (Members.put name (.table .header []) inner)
    | some (.table .passed known) => some (Members.put name (.table .header known) inner)
    | some _ => none) members

def openAnother (path : List String) (members : Branches) : Option Branches := do
  let name ← path.getLast?
  within path.dropLast (fun inner =>
    match Members.value? name inner with
    | none => some (Members.put name (.tables [] []) inner)
    | some (.tables before last) =>
      some (Members.put name (.tables (before ++ [.table (Node.entries last)]) []) inner)
    | some _ => none) members

def bind (current key : List String) (e : Entry) (members : Branches) : Option Branches := do
  let name ← key.getLast?
  within current (fun table =>
    change .key (· = .key) (fun inner =>
      match Members.value? name inner with
      | none => some (Members.put name (.value e) inner)
      | some _ => none) key.dropLast table) members

end Branches

end Verdict.Toml
