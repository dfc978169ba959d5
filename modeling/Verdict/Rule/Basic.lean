import Verdict.Digest.Sha256
import Verdict.Rule.Check
import Verdict.Rule.Definition

/-!
# Rules

A rule is a tree: it tests something itself or combines the rules below it, and it may depend on
other rules that have to hold first. It keeps the check that was last made of it together with
the digest that it had then.
-/

namespace Verdict

inductive Comparand where
  | values
  | dates
  | times
  deriving DecidableEq

/-- What a rule tests; `ρ` stands for rules. -/
inductive Test (ρ : Type) where
  | compare (as : Comparand) (left right : Option Operand)
  | compound (children : List ρ)
  /-- Tests every element of a collection. -/
  | iterate (left : Option Operand) (children : List ρ)
  | presence (left : Option Operand)

namespace Test

variable {ρ : Type}

def kind : Test ρ → Kind
  | compare .values _ _ => .primitive
  | compare .dates _ _ => .date
  | compare .times _ _ => .time
  | compound _ => .compound
  | iterate _ _ => .iterate
  | presence _ => .presence

def left : Test ρ → Option Operand
  | compare _ l _ => l
  | compound _ => none
  | iterate l _ => l
  | presence l => l

def right : Test ρ → Option Operand
  | compare _ _ r => r
  | _ => none

def children : Test ρ → List ρ
  | compound cs | iterate _ cs => cs
  | _ => []

def isGroup : Test ρ → Bool
  | compound _ | iterate _ _ => true
  | _ => false

def withChildren (cs : List ρ) : Test ρ → Test ρ
  | compound _ => compound cs
  | iterate l _ => iterate l cs
  | t => t

end Test

/-- A check and the digest of the rule that it was made from. -/
structure Memo where
  digest : String
  check : Check

structure Rule where
  test : Test Rule
  operator : Operator
  dependencies : List Rule
  locals : Members Operand
  description : Option String
  scope : ScopeId
  memo : Option Memo

namespace Rule

def of (scope : ScopeId) (test : Test Rule) (op : Operator) : Rule :=
  ⟨test, op, [], [], none, scope, none⟩

instance : Inhabited Rule := ⟨of ⟨0⟩ (.compound []) .all⟩

def kind (r : Rule) : Kind := r.test.kind

def left (r : Rule) : Option Operand := r.test.left

def right (r : Rule) : Option Operand := r.test.right

def children (r : Rule) : List Rule := r.test.children

def isEmpty (r : Rule) : Bool :=
  r.left.isNone && r.right.isNone && r.children.isEmpty

def label (kind : Kind) (op : Operator) : String :=
  kind.name ++ " " ++ op.name

mutual
def depth : Rule → Nat
  | ⟨test, _, dependencies, _, _, _, _⟩ => 1 + max (depthOfTest test) (depthOfAll dependencies)

def depthOfTest : Test Rule → Nat
  | .compound cs => depthOfAll cs
  | .iterate _ cs => depthOfAll cs
  | .compare .. => 0
  | .presence _ => 0

def depthOfAll : List Rule → Nat
  | [] => 0
  | r :: rest => max (depth r) (depthOfAll rest)
end

/-! ## Digests -/

def plain (o : Option Operand) : Json :=
  (o.map Operand.toJson).getD .null

def plainVariables (locals : Members Operand) : List (String × Json) :=
  locals.map fun (name, o) => (name, o.toJson)

mutual
/-- The digest of all that decides what a rule says; descriptions do not count. -/
def digest : Rule → String
  | ⟨test, op, dependencies, locals, _, _, _⟩ =>
    Digest.sha256 <| Json.text <| .obj
      [("conditions", .arr (digestBelow test)), ("dependencies", .arr (digestAll dependencies)),
        ("left", plain test.left), ("operator", .str op.name), ("right", plain test.right),
        ("type", .str test.kind.name), ("variables", .obj (plainVariables locals))]

def digestBelow : Test Rule → List Json
  | .compound cs => digestAll cs
  | .iterate _ cs => digestAll cs
  | .compare .. => []
  | .presence _ => []

def digestAll : List Rule → List Json
  | [] => []
  | r :: rest => .str (digest r) :: digestAll rest
end

/-! ## Scopes -/

mutual
/-- Moves a whole tree to a scope; checks made in another scope are forgotten. -/
def withScope (scope : ScopeId) : Rule → Rule
  | ⟨test, op, dependencies, locals, description, _, _⟩ =>
    ⟨withScopeBelow scope test, op, withScopeAll scope dependencies, locals, description, scope,
      none⟩

def withScopeBelow (scope : ScopeId) : Test Rule → Test Rule
  | .compound cs => .compound (withScopeAll scope cs)
  | .iterate l cs => .iterate l (withScopeAll scope cs)
  | .compare c l r => .compare c l r
  | .presence l => .presence l

def withScopeAll (scope : ScopeId) : List Rule → List Rule
  | [] => []
  | r :: rest => withScope scope r :: withScopeAll scope rest
end

/-! ## Plain form -/

def someUnlessEmpty {α : Type} : List α → Option (List α)
  | [] => none
  | xs => some xs

mutual
/-- The plain form: kind and operator always, operands, rules and variables if there are any. -/
def toDefinition : Rule → Definition
  | ⟨test, op, dependencies, locals, description, _, _⟩ =>
    { description
      left := test.left.map Operand.toJson
      right := test.right.map Operand.toJson
      kind := some test.kind.name
      operator := some op.name
      locals := someUnlessEmpty (plainVariables locals)
      dependencies := someUnlessEmpty (toDefinitions dependencies)
      conditions := someUnlessEmpty (toDefinitionsBelow test) }

def toDefinitionsBelow : Test Rule → List Definition
  | .compound cs => toDefinitions cs
  | .iterate _ cs => toDefinitions cs
  | .compare .. => []
  | .presence _ => []

def toDefinitions : List Rule → List Definition
  | [] => []
  | r :: rest => toDefinition r :: toDefinitions rest
end

def toJson (r : Rule) : Json :=
  r.toDefinition.toJson

/-- Equality of plain forms; scopes and kept checks do not count. -/
def alike (r s : Rule) : Bool :=
  r.toJson == s.toJson

/-! ## Making rules of definitions -/

def kindOf (name : Option String) : Except Fault Kind :=
  match name with
  | none => .ok .primitive
  | some name =>
    match Kind.read? name with
    | some k => .ok k
    | none => .error (.unknownKind name)

def operatorOf (name : Option String) : Except Fault Operator :=
  match name with
  | none => .ok .equal
  | some name =>
    match Operator.read? name with
    | some op => .ok op
    | none => .error (.unknownOperator name)

def operandOf (v : Option Json) : Except Fault (Option Operand) :=
  match v with
  | none => .ok none
  | some v => (Operand.ofJson v).map some

def variablesOf : List (String × Json) → Except Fault (Members Operand)
  | [] => .ok []
  | (name, v) :: rest =>
    if v.isNull then variablesOf rest
    else do
      let o ← Operand.ofJson v
      return (name, o) :: (← variablesOf rest)

/-- The test of a kind, which has to have a place for everything that is given. -/
def assemble (kind : Kind) (op : Operator) (left right : Option Operand) (children : List Rule) :
    Except Fault (Test Rule) :=
  let malformed := fun (reason : Reason) => .error (.malformed (label kind op) reason)
  match kind with
  | .compound =>
    if left.isSome || right.isSome then malformed .compoundOperands else .ok (.compound children)
  | .iterate =>
    if right.isSome then malformed .iterateRight else .ok (.iterate left children)
  | .presence =>
    if !children.isEmpty then malformed .childrenOfLeaf
    else if right.isSome then malformed .presenceRight
    else .ok (.presence left)
  | .primitive => if !children.isEmpty then malformed .childrenOfLeaf
    else .ok (.compare .values left right)
  | .date => if !children.isEmpty then malformed .childrenOfLeaf
    else .ok (.compare .dates left right)
  | .time => if !children.isEmpty then malformed .childrenOfLeaf
    else .ok (.compare .times left right)

mutual
def ofDefinition (scope : ScopeId) : Definition → Except Fault Rule
  | ⟨description, left, right, kind, operator, locals, dependencies, conditions⟩ => do
    let kind ← kindOf kind
    let op ← operatorOf operator
    let left ← operandOf left
    let right ← operandOf right
    let children ← ofDefinitions? scope conditions
    let test ← assemble kind op left right children
    let locals ← variablesOf (locals.getD [])
    let dependencies ← ofDefinitions? scope dependencies
    return ⟨test, op, dependencies, locals, description, scope, none⟩

def ofDefinitions? (scope : ScopeId) :
    Option (List Definition) → Except Fault (List Rule)
  | none => .ok []
  | some ds => ofDefinitions scope ds

def ofDefinitions (scope : ScopeId) : List Definition → Except Fault (List Rule)
  | [] => .ok []
  | d :: rest => do
    let r ← ofDefinition scope d
    return r :: (← ofDefinitions scope rest)
end

end Rule

end Verdict
