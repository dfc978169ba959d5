import Verdict.Pattern.Expr

/-!
# Matching programs

An expression becomes a list of instructions that refer to one another by position. A fork tries
its first way before its second, which is how choices and repetitions are ordered.
-/

namespace Verdict.Pattern

open Verdict.Text

/-- One instruction; every instruction but the last names where to go on. -/
inductive Instr where
  | char (s : CharSet) (next : Nat)
  | fork (first second : Nat)
  | save (slot next : Nat)
  | check (l : Look) (next : Nat)
  | accept

abbrev Code := Array Instr

namespace Code

def add (code : Code) (i : Instr) : Code × Nat :=
  let place := code.size
  (code.push i, place)

private def fork (code : Code) (greedy : Bool) (inside outside : Nat) : Code × Nat :=
  code.add (if greedy then .fork inside outside else .fork outside inside)

private def reserve (code : Code) : Code × Nat :=
  code.add .accept

private def fill (code : Code) (place : Nat) (greedy : Bool) (inside outside : Nat) : Code :=
  code.setIfInBounds place (if greedy then .fork inside outside else .fork outside inside)

private abbrev Adder := Code → (next : Nat) → Code × Nat

private def times (body : Adder) : (count : Nat) → Adder
  | 0, code, next => (code, next)
  | n + 1, code, next =>
    let (code, next) := body code next
    times body n code next

private def upTo (body : Adder) (greedy : Bool) (next : Nat) : (count : Nat) → Adder
  | 0, code, inner => (code, inner)
  | n + 1, code, inner =>
    let (code, inside) := body code inner
    let (code, inner) := code.fork greedy inside next
    upTo body greedy next n code inner

private def oneOrMore (body : Adder) (greedy : Bool) (code : Code) (next : Nat) : Code × Nat :=
  let (code, decide) := code.reserve
  let (code, inside) := body code decide
  (code.fill decide greedy inside next, inside)

/-- Any number of rounds. A body that may match nothing is entered once before it is repeated,
so that an empty round ends the repetition. -/
private def anyNumber (body : Adder) (greedy nonempty : Bool) (code : Code) (next : Nat) :
    Code × Nat :=
  if nonempty then
    let (code, decide) := code.reserve
    let (code, inside) := body code decide
    (code.fill decide greedy inside next, decide)
  else
    let (code, inside) := oneOrMore body greedy code next
    code.fork greedy inside next

/-- Adds the code of an expression in front of what goes on at `next`. -/
def compile : Expr → Code → (next : Nat) → Code × Nat
  | .empty, code, next => (code, next)
  | .word cs, code, next =>
    cs.reverse.foldl (fun (code, next) c => code.add (.char (.single c) next)) (code, next)
  | .set s, code, next => code.add (.char s next)
  | .look l, code, next => code.add (.check l next)
  | .capture i e, code, next =>
    let (code, close) := code.add (.save (2 * i + 1) next)
    let (code, inside) := compile e code close
    code.add (.save (2 * i) inside)
  | .seq a b, code, next =>
    let (code, second) := compile b code next
    compile a code second
  | .alt a b, code, next =>
    let (code, second) := compile b code next
    let (code, first) := compile a code next
    code.add (.fork first second)
  | .rep least most greedy e, code, next =>
    let body := compile e
    match most with
    | some n =>
      let (code, optional) := upTo body greedy next (n - least) code next
      times body (min least n) code optional
    | none =>
      if least = 0 then
        anyNumber body greedy ((e.minLength.getD 0) > 0) code next
      else
        let (code, last) := oneOrMore body greedy code next
        times body (least - 1) code last

end Code

structure Program where
  code : Code
  start : Nat

def Program.ofExpr (e : Expr) : Program :=
  let (code, accept) := Code.add #[] .accept
  let (code, start) := Code.compile (.capture 0 e) code accept
  ⟨code, start⟩

end Verdict.Pattern
