import Verdict.Operand.Getter
import Verdict.Rule.Temporal
import Verdict.Rule.Trace

/-!
# Checks

A rule made ready: its operands are getters and its children are checks. A check depends on
nothing but the record, the environment, the current time and the patterns of its scope, so it
stays as it is whatever becomes of the rule that it was made from.
-/

namespace Verdict

mutual
structure Check where
  /-- The identity of this very check. -/
  id : Nat
  kind : Kind
  operator : Operator
  locals : List (String × Getter)
  dependencies : List Check
  main : Main

inductive Main where
  /-- Nothing to test. -/
  | pass
  | compound (children : List Check)
  | iterate (collection : Getter) (children : List Check)
  /-- Compares two values; faults of patterns name the right operand by its text. -/
  | values (scope : ScopeId) (rightText : String) (left right : Getter)
  | instants (left right : Getter)
  | extent (left right : Getter)
  | presence (left : Getter)
end

namespace Check

/-! ## Environments -/

/-- The values of variables; what has no value is null. -/
def resolve (now : Instant) (locals : List (String × Getter)) (record : Json)
    (env : Environment) : Environment :=
  Members.gather (locals.map fun (name, getter) =>
    (name, (getter.value now record env).getD .null))

/-- The environment below a rule: its variables, and above them what the caller gave. -/
def bind (now : Instant) (locals : List (String × Getter)) (record : Json)
    (env : Environment) : Environment :=
  if locals.isEmpty then env else Members.overlay (resolve now locals record env) env

/-! ## Tests of values -/

def blamePattern (rightText : String) (f : Fault) : Fault :=
  match f with
  | .invalidPattern _ => .unresolved rightText f
  | _ => f

def compareValues (op : Operator) (scope : ScopeId) (rightText : String) (a b : Json) :
    Work Bool :=
  fun s =>
    let shared := s.scope scope
    let (result, patterns, fresh) := op.compareWith a b shared.patterns s.fresh
    (result.mapError (blamePattern rightText),
      { s.setScope scope { shared with patterns } with fresh })

def testValues (op : Operator) (scope : ScopeId) (rightText : String) (left right : Option Json) :
    Work Bool :=
  match left, right with
  | some a, some b =>
    if a.isNull || b.isNull then return false else compareValues op scope rightText a b
  | _, _ => return false

def instantOf (v : Option Json) : Option Instant :=
  v.bind Json.instant?

def dated (v : Option Json) : Option Json :=
  match instantOf v with
  | some i => some (.ofInstant i)
  | none => v

def traceInstants (kind : Kind) (op : Operator) (env : Environment)
    (left right : Option Json) : Trace :=
  let result := match instantOf left, instantOf right with
    | some i, some j => op.compareInstants (kind == .date) i j
    | _, _ => false
  { Trace.of kind op env result with left := dated left, right := dated right }

def traceExtent (kind : Kind) (op : Operator) (env : Environment)
    (left right : Option Json) : Trace :=
  match instantOf left with
  | none => { Trace.of kind op env false with left }
  | some i =>
    let bounds := (right.getD .null).elements
    let low := bounds[0]?.bind Json.instant?
    let high := bounds[1]?.bind Json.instant?
    let spell := fun (bound : Option Instant) => (bound.map Json.ofInstant).getD .null
    { Trace.of kind op env (op.compareExtent (kind == .date) i low high) with
      left := some (.ofInstant i), right := some (.arr [spell low, spell high]) }

def testPresence (op : Operator) (v : Option Json) : Bool :=
  if op = .isFalse then Json.isAbsent v else !Json.isAbsent v

/-! ## Running -/

/-- The trace of a rule from the traces of its dependencies and, if all of them hold, that of its
test; otherwise the rule holds untested. -/
def gate (kind : Kind) (op : Operator) (env : Environment) (traces : List Trace)
    (main : Work Trace) : Work Trace := do
  let passed := traces.all (·.result)
  let trace ← if passed then main else pure (Trace.of kind op env true)
  return { trace with dependencies := some passed, dependencyTraces := some traces }

/-- The result of a group of traces; all of them are run, whatever the first ones say. -/
def group (kind : Kind) (op : Operator) (env : Environment) (traces : List Trace) :
    Work Trace := do
  let result ← op.combine (traces.map (·.result))
  return { Trace.of kind op env result with results := some traces }

mutual
def run (now : Instant) : Check → Json → Environment → Work Trace
  | ⟨_, kind, op, locals, dependencies, main⟩, record, env => do
    let env := bind now locals record env
    if dependencies.isEmpty then runMain now kind op main record env
    else
      let traces ← runAll now dependencies record env
      gate kind op env traces (runMain now kind op main record env)

def runMain (now : Instant) (kind : Kind) (op : Operator) :
    Main → Json → Environment → Work Trace
  | .pass, _, _ => return Trace.pass
  | .compound children, record, env => do
    group kind op env (← runAll now children record env)
  | .iterate collection children, record, env => do
    let targets := ((collection.value now record env).getD .null).elements
    -- every element is the record of its own run
    let traces ← targets.mapM fun target => do
      let results ← runAll now children target env
      return { Trace.of kind .all env (results.all (·.result)) with results := some results }
    return { ← group kind op env traces with targets := some targets }
  | .values scope rightText left right, record, env => do
    let l := left.value now record env
    let r := right.value now record env
    let result ← testValues op scope rightText l r
    return { Trace.of kind op env result with left := l, right := r }
  | .instants left right, record, env =>
    return traceInstants kind op env (left.value now record env) (right.value now record env)
  | .extent left right, record, env =>
    return traceExtent kind op env (left.value now record env) (right.value now record env)
  | .presence left, record, env =>
    let l := left.value now record env
    return { Trace.of kind op env (testPresence op l) with left := l }

def runAll (now : Instant) : List Check → Json → Environment → Work (List Trace)
  | [], _, _ => return []
  | c :: rest, record, env => do
    let trace ← run now c record env
    return trace :: (← runAll now rest record env)
end

end Check

end Verdict
