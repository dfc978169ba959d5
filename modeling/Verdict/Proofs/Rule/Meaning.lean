import Verdict.Proofs.Operand.Meaning
import Verdict.Proofs.Rule.Tree
import Verdict.Rule.Compile

/-!
# What rules mean

A direct interpreter of trees of rules.  It walks the tree anew for every record, finds the values
of operands where it meets them, builds every pattern again and keeps nothing.  Beside it stands
the audit of a tree: the first fault that making a check of it meets, in the order of compilation.
-/

namespace Verdict

def Comparand.kind : Comparand → Kind
  | .values => .primitive
  | .dates => .date
  | .times => .time

@[simp]
theorem Test.kind_compare {ρ : Type} (as : Comparand) (left right : Option Operand) :
    (compare as left right : Test ρ).kind = as.kind := by
  cases as <;> rfl

namespace Rule

/-! ## Interpreter -/

def rightText (right : Option Operand) : String :=
  ((right.map Operand.toJson).map Json.text).getD ""

/-- The result of comparing two values that may be missing or null. -/
def testFound (op : Operator) (rightText : String) (left right : Option Json) :
    Except Fault Bool :=
  match left, right with
  | some a, some b =>
    if a.isNull || b.isNull then return false
    else (op.compare a b).mapError (Check.blamePattern rightText)
  | _, _ => return false

/-- The environment below a rule: its variables, and above them what the caller gave. -/
def extend (kind : Kind) (locale : String) (now : Instant) (record : Json) (env : Environment)
    (locals : Members Operand) : Except Fault Environment := do
  if locals.isEmpty then return env
  let found ← locals.mapM fun l =>
    return (l.1, (← l.2.find kind locale now record env).getD .null)
  return Members.overlay (Members.gather found) env

/-- The trace of a comparison; without operands there is nothing to test. -/
def interpretComparison (locale : String) (now : Instant) (op : Operator) (as : Comparand)
    (left right : Option Operand) (record : Json) (env : Environment) : Except Fault Trace := do
  if left.isNone && right.isNone then return Trace.pass
  let l ← Operand.findBound as.kind locale now record env left
  let r ← Operand.findBound as.kind locale now record env right
  match as with
  | .values =>
    let result ← testFound op (rightText right) l r
    return { Trace.of as.kind op env result with left := l, right := r }
  | .dates | .times =>
    return if op.isTemporalExtent then Check.traceExtent as.kind op env l r
      else Check.traceInstants as.kind op env l r

def conclude (kind : Kind) (op : Operator) (env : Environment) (traces : List Trace) :
    Except Fault Trace := do
  let result ← op.combine (traces.map (·.result))
  return { Trace.of kind op env result with results := some traces }

mutual
/-- What a rule says of a record in an environment, where `tongue` gives the locale of scopes.
If a dependency fails, the rule holds untested. -/
def interpret (tongue : ScopeId → String) (now : Instant) :
    Rule → Json → Environment → Except Fault Trace
  | ⟨test, op, dependencies, locals, _, scope, _⟩, record, env => do
    let env ← extend test.kind (tongue scope) now record env locals
    if dependencies.isEmpty then interpretTest tongue now op scope test record env
    else
      let traces ← interpretAll tongue now dependencies record env
      let passed := traces.all (·.result)
      let trace ← if passed then interpretTest tongue now op scope test record env
        else pure (Trace.of test.kind op env true)
      return { trace with dependencies := some passed, dependencyTraces := some traces }

/-- The trace of the test of a node, with the kind and the scope of the node. -/
def interpretTest (tongue : ScopeId → String) (now : Instant) (op : Operator) (scope : ScopeId) :
    Test Rule → Json → Environment → Except Fault Trace
  | .compare as left right, record, env =>
    interpretComparison (tongue scope) now op as left right record env
  | .compound cs, record, env => do
    conclude .compound op env (← interpretAll tongue now cs record env)
  | .iterate left cs, record, env => do
    let collection ← Operand.findBound .iterate (tongue scope) now record env left
    let targets := (collection.getD .null).elements
    let traces ← targets.mapM fun target => do
      let results ← interpretAll tongue now cs target env
      return { Trace.of .iterate .all env (results.all (·.result)) with results := some results }
    return { ← conclude .iterate op env traces with targets := some targets }
  | .presence left, record, env => do
    if left.isNone then return Trace.pass
    let l ← Operand.findBound .presence (tongue scope) now record env left
    return { Trace.of .presence op env (Check.testPresence op l) with left := l }

def interpretAll (tongue : ScopeId → String) (now : Instant) :
    List Rule → Json → Environment → Except Fault (List Trace)
  | [], _, _ => return []
  | r :: rest, record, env => do
    let trace ← interpret tongue now r record env
    return trace :: (← interpretAll tongue now rest record env)
end

/-- What a rule with dependencies says: the trace of its test if all of them hold. -/
theorem interpret_gated {tongue : ScopeId → String} {now : Instant} {r : Rule} {record : Json}
    {env : Environment} (h : r.dependencies.isEmpty = false) :
    r.interpret tongue now record env = (do
      let e ← extend r.kind (tongue r.scope) now record env r.locals
      let traces ← interpretAll tongue now r.dependencies record e
      (if traces.all (·.result) then interpretTest tongue now r.operator r.scope r.test record e
        else .ok (Trace.of r.kind r.operator e true)).map fun trace =>
          { trace with
            dependencies := some (traces.all (·.result)), dependencyTraces := some traces }) := by
  obtain ⟨test, op, dependencies, locals, description, scope, memo⟩ := r
  rw [interpret]
  refine bind_congr fun e => ?_
  rw [if_neg (by rw [show dependencies.isEmpty = false from h]; exact Bool.false_ne_true)]
  refine bind_congr fun traces => ?_
  cases traces.all (·.result)
  · rfl
  · rw [if_pos rfl]
    cases interpretTest tongue now op scope test record e <;> rfl

theorem interpret_ungated {tongue : ScopeId → String} {now : Instant} {r : Rule} {record : Json}
    {env : Environment} (h : r.dependencies = []) :
    r.interpret tongue now record env = (do
      let e ← extend r.kind (tongue r.scope) now record env r.locals
      interpretTest tongue now r.operator r.scope r.test record e) := by
  obtain ⟨test, op, dependencies, locals, description, scope, memo⟩ := r
  cases h
  rw [interpret]
  rfl

/-! ## Audit -/

def auditPattern (op : Operator) (right : Option Operand) : Except Fault Unit :=
  match op, literalPattern? right with
  | .matching, some pattern =>
    ((Pattern.buildDelimited pattern).map fun _ => ()).mapError
      (Check.blamePattern (rightText right))
  | _, _ => return ()

def auditSides (kind : Kind) (op : Operator) (left right : Option Operand) :
    Except Fault Unit := do
  let l ← required kind op .leftMissing left
  if op.requiresRight then
    let _ ← required kind op .rightMissing right
  l.audit
  Operand.auditBound right

def auditComparison (op : Operator) (as : Comparand) (left right : Option Operand) :
    Except Fault Unit := do
  if left.isNone && right.isNone then return ()
  match as with
  | .values =>
    if op.isLogical then throw (.malformed (label .primitive op) .logicalLeaf)
    auditPattern op right
  | .dates => pure ()
  | .times =>
    if !op.isTemporalExtent && !op.isTemporal then
      throw (.malformed (label .time op) .temporalOperator)
  auditSides as.kind op left right

def auditVariables : Members Operand → Except Fault Unit
  | [] => return ()
  | (_, o) :: rest => do
    o.audit
    auditVariables rest

/-- The fault of what comes before the rules below an iteration. -/
def auditCollection (op : Operator) (left : Option Operand) (children : List Rule) :
    Except Fault Unit := do
  checkGroup .iterate op children .iterateEmpty .iterateOperator
  let l ← required .iterate op .leftMissing left
  l.audit

mutual
/-- The first fault of making a check of a rule: of its variables, its dependencies, its test. -/
def audit : Rule → Except Fault Unit
  | ⟨test, op, dependencies, locals, _, _, _⟩ => do
    auditVariables locals
    auditAll dependencies
    auditTest op test

def auditTest (op : Operator) : Test Rule → Except Fault Unit
  | .compare as left right => auditComparison op as left right
  | .compound cs => do
    checkGroup .compound op cs .compoundEmpty .compoundOperator
    auditAll cs
  | .iterate left cs => do
    auditCollection op left cs
    auditAll cs
  | .presence left => Operand.auditBound left

def auditAll : List Rule → Except Fault Unit
  | [] => return ()
  | r :: rest => do
    audit r
    auditAll rest
end

/-! ## Bare trees -/

section Audit

variable (move : ScopeId → ScopeId)

theorem isEmpty_bareAll (rs : List Rule) : (bareAll move rs).isEmpty = rs.isEmpty := by
  cases rs <;> rfl

theorem checkGroup_bareAll (kind : Kind) (op : Operator) (rs : List Rule)
    (empty comparison : Reason) :
    checkGroup kind op (bareAll move rs) empty comparison =
      checkGroup kind op rs empty comparison := by
  rw [checkGroup, checkGroup, isEmpty_bareAll]

mutual
theorem audit_bare : (r : Rule) → (r.bare move).audit = r.audit
  | ⟨test, op, dependencies, locals, description, scope, memo⟩ => by
    rw [bare, audit, audit, auditAll_bare, auditTest_bare]

theorem auditTest_bare (op : Operator) : (test : Test Rule) →
    auditTest op (bareBelow move test) = auditTest op test
  | .compare .. => rfl
  | .presence _ => rfl
  | .compound cs => by
    rw [bareBelow, auditTest, auditTest, checkGroup_bareAll, auditAll_bare]
  | .iterate l cs => by
    rw [bareBelow, auditTest, auditTest, auditCollection, auditCollection, checkGroup_bareAll,
      auditAll_bare]

theorem auditAll_bare : (rs : List Rule) → auditAll (bareAll move rs) = auditAll rs
  | [] => rfl
  | r :: rest => by
    rw [bareAll, auditAll, auditAll, audit_bare r, auditAll_bare rest]
end

theorem audit_eq_of_bare {a b : Rule} (h : a.bare move = b.bare move) : a.audit = b.audit := by
  rw [← audit_bare move a, h, audit_bare]

end Audit

section Interpret

variable {move : ScopeId → ScopeId} (tongue : ScopeId → String) (now : Instant)

mutual
theorem interpret_bare : (r : Rule) →
    (r.bare move).interpret tongue now = r.interpret (tongue ∘ move) now
  | ⟨test, op, dependencies, locals, description, scope, memo⟩ => by
    funext record env
    rw [bare, interpret, interpret, interpretAll_bare, interpretTest_bare, isEmpty_bareAll,
      kind_bareBelow, Function.comp]

theorem interpretTest_bare (op : Operator) (scope : ScopeId) : (test : Test Rule) →
    interpretTest tongue now op (move scope) (bareBelow move test) =
      interpretTest (tongue ∘ move) now op scope test
  | .compare .. => rfl
  | .presence _ => rfl
  | .compound cs => by
    funext record env
    rw [bareBelow, interpretTest, interpretTest, interpretAll_bare]
  | .iterate l cs => by
    funext record env
    rw [bareBelow, interpretTest, interpretTest, interpretAll_bare, Function.comp]

theorem interpretAll_bare : (rs : List Rule) →
    interpretAll tongue now (bareAll move rs) = interpretAll (tongue ∘ move) now rs
  | [] => rfl
  | r :: rest => by
    funext record env
    rw [bareAll, interpretAll, interpretAll, interpret_bare r, interpretAll_bare rest]
end

theorem interpret_eq_of_bare {a b : Rule} (h : a.bare id = b.bare id) :
    a.interpret tongue now = b.interpret tongue now := by
  have hbare : ∀ r : Rule, (r.bare id).interpret tongue now = r.interpret tongue now :=
    interpret_bare tongue now
  rw [← hbare a, h, hbare]

end Interpret

end Rule

end Verdict
