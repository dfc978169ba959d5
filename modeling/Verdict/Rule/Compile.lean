import Verdict.Rule.Basic

/-!
# Compiling rules

A check is made of a rule once and kept with the digest of the rule, so that compiling again
yields the very same check until the rule changes. A forced compilation makes a check of its own
and keeps nothing; the rules below it are still compiled in the usual way. What has been kept or
put into caches before a fault stays.
-/

namespace Verdict.Rule

/-! ## Leaves -/

def required (kind : Kind) (op : Operator) (reason : Reason) (o : Option Operand) :
    Except Fault Operand :=
  match o with
  | some o => .ok o
  | none => .error (.malformed (label kind op) reason)

def compileSides (kind : Kind) (scope : ScopeId) (op : Operator)
    (left right : Option Operand) : Work (Getter × Getter) := do
  let left ← required kind op .leftMissing left
  if op.requiresRight then
    let _ ← required kind op .rightMissing right
  let l ← left.compile kind scope
  let r ← Operand.compile? kind scope right
  return (l, r)

def literalPattern? (o : Option Operand) : Option String :=
  match o with
  | some ⟨.literal (.str pattern), []⟩ => some pattern
  | _ => none

def preparePattern (scope : ScopeId) (op : Operator) (rightText : String)
    (right : Option Operand) : Work Unit :=
  match op, literalPattern? right with
  | .matching, some pattern => fun s =>
    match Work.pattern scope pattern s with
    | (.ok _, s) => (.ok (), s)
    | (.error f, s) => (.error (Check.blamePattern rightText f), s)
  | _, _ => return ()

def compileValues (scope : ScopeId) (op : Operator) (left right : Option Operand) :
    Work Main := do
  if op.isLogical then throw (.malformed (label .primitive op) .logicalLeaf)
  let rightText := ((right.map Operand.toJson).map Json.text).getD ""
  preparePattern scope op rightText right
  let (l, r) ← compileSides .primitive scope op left right
  return .values scope rightText l r

def compileInstants (kind : Kind) (scope : ScopeId) (op : Operator)
    (left right : Option Operand) : Work Main := do
  if op.isTemporalExtent then
    let (l, r) ← compileSides kind scope op left right
    return .extent l r
  if kind = .time ∧ !op.isTemporal then throw (.malformed (label kind op) .temporalOperator)
  let (l, r) ← compileSides kind scope op left right
  return .instants l r

/-- The test of a comparison; without operands there is nothing to test. -/
def compileComparison (scope : ScopeId) (op : Operator) (as : Comparand)
    (left right : Option Operand) : Work Main :=
  if left.isNone && right.isNone then return .pass
  else match as with
    | .values => compileValues scope op left right
    | .dates => compileInstants .date scope op left right
    | .times => compileInstants .time scope op left right

def compilePresence (scope : ScopeId) (left : Option Operand) : Work Main :=
  match left with
  | none => return .pass
  | some o => do return .presence (← o.compile .presence scope)

def compileVariables (kind : Kind) (scope : ScopeId) :
    Members Operand → Work (List (String × Getter))
  | [] => return []
  | (name, o) :: rest => do
    let getter ← o.compile kind scope
    return (name, getter) :: (← compileVariables kind scope rest)

/-! ## Groups -/

def checkGroup (kind : Kind) (op : Operator) (children : List Rule)
    (empty comparison : Reason) : Except Fault Unit :=
  if children.isEmpty then .error (.malformed (label kind op) empty)
  else if !op.isLogical then .error (.malformed (label kind op) comparison)
  else .ok ()

/-- What comes before the rules below an iteration: its shape and its collection. -/
def compileCollection (scope : ScopeId) (op : Operator) (left : Option Operand)
    (children : List Rule) : Work Getter := do
  checkGroup .iterate op children .iterateEmpty .iterateOperator
  let left ← required .iterate op .leftMissing left
  left.compile .iterate scope

/-! ## Trees -/

mutual
/-- The check of a rule, and the rule with the checks that have been kept: the kept check if the
rule has not changed since, unless a new one is forced. -/
def compile (force : Bool) : Rule → StateM Session (Except Fault Check × Rule)
  | ⟨test, op, dependencies, locals, description, scope, memo⟩ => do
    let node := fun test dependencies memo =>
      Rule.mk test op dependencies locals description scope memo
    let current := digest ⟨test, op, dependencies, locals, description, scope, memo⟩
    match memo.filter fun m => !force && m.digest == current with
    | some m => return (.ok m.check, node test dependencies memo)
    | none =>
      match ← compileVariables test.kind scope locals with
      | .error f => return (.error f, node test dependencies memo)
      | .ok getters =>
        match ← compileAll dependencies with
        | (.error f, dependencies) => return (.error f, node test dependencies memo)
        | (.ok checks, dependencies) =>
          match ← compileTest scope op test with
          | (.error f, test) => return (.error f, node test dependencies memo)
          | (.ok main, test) =>
            let id ← modifyGet fun s => (s.fresh, { s with fresh := s.fresh + 1 })
            let check : Check := ⟨id, test.kind, op, getters, checks, main⟩
            return (.ok check,
              node test dependencies (if force then memo else some ⟨current, check⟩))

def compileTest (scope : ScopeId) (op : Operator) :
    Test Rule → StateM Session (Except Fault Main × Test Rule)
  | .compare as left right => do
    return (← compileComparison scope op as left right, .compare as left right)
  | .presence left => do
    return (← compilePresence scope left, .presence left)
  | .compound cs => do
    match checkGroup .compound op cs .compoundEmpty .compoundOperator with
    | .error f => return (.error f, .compound cs)
    | .ok () =>
      let (checks, cs) ← compileAll cs
      return (checks.map .compound, .compound cs)
  | .iterate left cs => do
    match ← compileCollection scope op left cs with
    | .error f => return (.error f, .iterate left cs)
    | .ok collection =>
      let (checks, cs) ← compileAll cs
      return (checks.map (.iterate collection), .iterate left cs)

def compileAll : List Rule → StateM Session (Except Fault (List Check) × List Rule)
  | [] => return (.ok [], [])
  | r :: rest => do
    match ← compile false r with
    | (.error f, r) => return (.error f, r :: rest)
    | (.ok check, r) =>
      let (checks, rest) ← compileAll rest
      return (checks.map (check :: ·), r :: rest)
end

/-! ## Evaluation -/

def evaluate (r : Rule) (now : Instant) (record : Json) (env : Environment) :
    StateM Session (Except Fault Trace × Rule) := do
  match ← r.compile false with
  | (.error f, r) => return (.error f, r)
  | (.ok check, r) => return (← check.run now record env, r)

/-- Compiles a rule and runs its check; an empty rule holds whether or not it could be compiled. -/
def evaluateOrPass (r : Rule) (now : Instant) (record : Json) (env : Environment) :
    StateM Session (Except Fault Trace × Rule) :=
  if r.isEmpty then return (.ok Trace.pass, r) else r.evaluate now record env

end Verdict.Rule
