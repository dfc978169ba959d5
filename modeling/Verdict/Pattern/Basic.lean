import Verdict.Pattern.Automaton
import Verdict.Pattern.Reader
import Verdict.Pattern.Search

/-!
# Patterns

A pattern is a regular expression ready to be matched. It matches leftmost first: the earliest
match in the text, and among those the one that the expression prefers.
-/

namespace Verdict

structure Pattern where
  source : String
  program : Pattern.Program
  names : List (String × Nat)
  groups : Nat

namespace Pattern

def compile (source : String) : Option Pattern :=
  match Reader.read source with
  | some (e, names, groups) =>
    if Automaton.fits e then some ⟨source, Program.ofExpr e, names, groups⟩ else none
  | none => none

/-- The characters of a text, spelled so that each stands for itself. -/
def escaped (cs : List Char) : List Char :=
  cs.flatMap fun c => if Reader.isMeta c then ['\\', c] else [c]

def escape (text : String) : String :=
  String.ofList (escaped text.toList)

private def group (text : Array Char) (slots : Slots) (i : Nat) : Option (List Char) := do
  let start ← slots.getD (2 * i) none
  let stop ← slots.getD (2 * i + 1) none
  return (text.extract start stop).toList

private def span (slots : Slots) : Nat × Nat :=
  ((slots.getD 0 none).getD 0, (slots.getD 1 none).getD 0)

def isMatch (p : Pattern) (text : String) : Bool :=
  (Search.first p.program p.groups text.toList.toArray 0).isSome

def captures? (p : Pattern) (text : String) : Option (List (Option String)) :=
  let cs := text.toList.toArray
  (Search.first p.program p.groups cs 0).map fun slots =>
    (List.range (p.groups + 1)).map fun i => (group cs slots i).map String.ofList

def find? (p : Pattern) (text : String) : Option String :=
  ((p.captures? text).bind List.head?).join

/-! ## All matches -/

/-- Where the matches are, from left to right and without overlap. An empty match right behind
a match does not count. Every round moves on by a character, so the length is enough fuel. -/
private def spans (p : Pattern) (cs : Array Char) : (fuel pos : Nat) → (last : Option Nat) →
    List (Nat × Nat)
  | 0, _, _ => []
  | fuel + 1, pos, last =>
    if cs.size < pos then []
    else match Search.first p.program p.groups cs pos with
      | none => []
      | some slots =>
        let (start, stop) := span slots
        if start = stop ∧ last = some stop then spans p cs fuel (pos + 1) last
        else (start, stop) :: spans p cs fuel stop (some stop)

private def pieces (cs : Array Char) (start : Nat) : List (Nat × Nat) → List String
  | [] => [String.ofList (cs.extract start cs.size).toList]
  | (stop, next) :: rest => String.ofList (cs.extract start stop).toList :: pieces cs next rest

def split (p : Pattern) (text : String) : List String :=
  let cs := text.toList.toArray
  pieces cs 0 (p.spans cs (2 * cs.size + 3) 0 none)

/-! ## Replacement -/

private def isRefChar (c : Char) : Bool :=
  c.isAlphanum || c == '_'

/-- The group that a reference names: a number, or the name of a group. -/
private def refIndex (p : Pattern) (name : List Char) : Option Nat :=
  let ds := if name.head? == some '+' then name.drop 1 else name
  if !ds.isEmpty && ds.all Decimal.isDigit && Decimal.natOf ds < Word.unsignedLimit then
    some (Decimal.natOf ds)
  else p.names.lookup (String.ofList name)

/-- Replaces references to groups: `$name`, with the longest name that can be read, or a name in
braces; two dollar signs are one. A reference to no group is empty. -/
private def expand (p : Pattern) (cs : Array Char) (slots : Slots) :
    (fuel : Nat) → List Char → List Char
  | 0, rest => rest
  | fuel + 1, rest =>
    let value := fun (name : List Char) => match p.refIndex name with
      | some i => (group cs slots i).getD []
      | none => []
    match rest with
    | [] => []
    | '$' :: '$' :: rest => '$' :: expand p cs slots fuel rest
    | '$' :: '\x7b' :: rest =>
      match rest.dropWhile (· != '\x7d') with
      | _ :: after => value (rest.takeWhile (· != '\x7d')) ++ expand p cs slots fuel after
      | [] => '$' :: '\x7b' :: expand p cs slots fuel rest
    | '$' :: rest =>
      let name := rest.takeWhile isRefChar
      if name.isEmpty then '$' :: expand p cs slots fuel rest
      else value name ++ expand p cs slots fuel (rest.dropWhile isRefChar)
    | c :: rest => c :: expand p cs slots fuel rest

def replaceFirst (p : Pattern) (text replacement : String) : String :=
  let cs := text.toList.toArray
  match Search.first p.program p.groups cs 0 with
  | none => text
  | some slots =>
    let (start, stop) := span slots
    let rs := replacement.toList
    String.ofList ((cs.extract 0 start).toList ++ p.expand cs slots rs.length rs ++
      (cs.extract stop cs.size).toList)

end Pattern

end Verdict
