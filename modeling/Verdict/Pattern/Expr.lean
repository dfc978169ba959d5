import Verdict.Text.CharSet

/-!
# Regular expressions

The expressions that patterns spell: words, sets of single characters, conditions on a position,
groups, sequences, ordered choices and repetitions. They are built in a simple form, on which the
room of their automata depends.
-/

namespace Verdict.Pattern

open Verdict.Text

/-- A condition on a position between two characters. -/
inductive Look where
  | textStart
  | textEnd
  | lineStart
  | lineEnd
  | lineStartCrlf
  | lineEndCrlf
  | boundary (ascii : Bool)
  | notBoundary (ascii : Bool)
  | wordStart (ascii : Bool)
  | wordEnd (ascii : Bool)
  | wordStartHalf (ascii : Bool)
  | wordEndHalf (ascii : Bool)
  deriving DecidableEq

/-- A regular expression. In choices and repetitions earlier ways to match come first. -/
inductive Expr where
  | empty
  | word (cs : List Char)
  | set (s : CharSet)
  | look (l : Look)
  | capture (index : Nat) (e : Expr)
  | seq (first second : Expr)
  | alt (first second : Expr)
  | rep (least : Nat) (most : Option Nat) (greedy : Bool) (e : Expr)
  deriving DecidableEq

namespace Expr

/-- The fewest characters of a match; none where some part matches nothing at all. -/
def minLength : Expr → Option Nat
  | empty => some 0
  | word cs => some cs.length
  | set s => if s.isEmpty then none else some 1
  | look _ => some 0
  | capture _ e => e.minLength
  | seq a b => do return (← a.minLength) + (← b.minLength)
  | alt a b => do return min (← a.minLength) (← b.minLength)
  | rep least _ _ e => e.minLength.map (least * ·)

def consumesNothing : Expr → Bool
  | empty => true
  | word cs => cs.isEmpty
  | set _ => false
  | look _ => true
  | capture _ e => e.consumesNothing
  | seq a b => a.consumesNothing && b.consumesNothing
  | alt a b => a.consumesNothing && b.consumesNothing
  | rep _ most _ e => most.isSome && e.consumesNothing

def beginsText : Expr → Bool
  | look l => l = .textStart
  | capture _ e => e.beginsText
  | seq a b => a.beginsText || (a.consumesNothing && b.beginsText)
  | alt a b => a.beginsText && b.beginsText
  | rep least _ _ e => least > 0 && e.beginsText
  | _ => false

def endsText : Expr → Bool
  | look l => l = .textEnd
  | capture _ e => e.endsText
  | seq a b => b.endsText || (b.consumesNothing && a.endsText)
  | alt a b => a.endsText && b.endsText
  | rep least _ _ e => least > 0 && e.endsText
  | _ => false

/-! ## Sequences -/

def parts : Expr → List Expr
  | empty => []
  | seq a b => a :: b.parts
  | e => [e]

private def isSeq : Expr → Bool
  | seq _ _ => true
  | _ => false

def pushPart : Expr → List Expr → List Expr
  | word a, word b :: rest => word (a ++ b) :: rest
  | e, rest => e :: rest

def ofParts : List Expr → Expr
  | [] => empty
  | [e] => e
  | e :: rest => seq e (ofParts rest)

def concat (es : List Expr) : Expr :=
  ofParts ((es.flatMap parts).foldr pushPart [])

/-! ## Choices -/

def ofSet (s : CharSet) : Expr :=
  match s.single? with
  | some c => word [c]
  | none => set s

def branches : Expr → List Expr
  | alt a b => a :: b.branches
  | e => [e]

private def ofBranches : List Expr → Expr
  | [] => set .empty
  | [e] => e
  | e :: rest => alt e (ofBranches rest)

private def letter? : Expr → Option CharSet
  | word [c] => some (.single c)
  | _ => none

private def set? : Expr → Option CharSet
  | set s => some s
  | _ => none

/-- A choice whose branches begin in different ways. Single characters become one set, and so do
sets, but not both together. -/
private def plainChoice (es : List Expr) : Expr :=
  let es := es.flatMap branches
  match es.mapM letter? <|> es.mapM set? with
  | some sets => ofSet (.unions sets)
  | none => ofBranches es

private def commonParts : List Expr → List Expr → List Expr
  | a :: as, b :: bs => if a = b then a :: commonParts as bs else []
  | _, _ => []

private def sharedParts : List Expr → List Expr
  | e :: es =>
    if !es.isEmpty && (e :: es).all isSeq then
      es.foldl (fun shared e => commonParts shared e.parts) e.parts
    else []
  | [] => []

/-- Expressions of which an earlier one is preferred. What all of them begin with is written
once, in front of the choice. -/
def choice (es : List Expr) : Expr :=
  let es := es.flatMap branches
  let shared := sharedParts es
  if shared.isEmpty then plainChoice es
  else concat (shared ++ [plainChoice (es.map fun e => concat (e.parts.drop shared.length))])

/-! ## Repetitions -/

/-- An expression several times over. One that consumes nothing need not be repeated. -/
def repeated (least : Nat) (most : Option Nat) (greedy : Bool) (e : Expr) : Expr :=
  let (least, most) :=
    if e.consumesNothing then (min least 1, some (min (most.getD 1) 1)) else (least, most)
  if most = some 0 then empty
  else if least = 1 ∧ most = some 1 then e
  else rep least most greedy e

end Expr

end Verdict.Pattern
