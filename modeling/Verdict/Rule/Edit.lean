import Verdict.Rule.Basic

/-!
# Building and editing rules

Rules made from operands and other rules, changes of one node, and the way to a node of a tree.
Editing never touches the check that a node has kept: its digest tells whether it still counts.
-/

namespace Verdict.Rule

/-! ## Building -/

def compare (scope : ScopeId) (kind : Kind) (left : Operand) (op : Operator) (right : Operand) :
    Except Fault Rule :=
  let made := fun (c : Comparand) => .ok (of scope (.compare c (some left) (some right)) op)
  match kind with
  | .primitive => made .values
  | .date => made .dates
  | .time => made .times
  | _ => .error (.malformed (label kind op) .comparisonKind)

def simple (scope : ScopeId) (path : String) (op : Operator) (value : Json) : Rule :=
  of scope (.compare .values (some (.path path)) (some (.literal value))) op

def matching (scope : ScopeId) (path pattern : String) : Rule :=
  simple scope path .matching (.str pattern)

def iterate (scope : ScopeId) (left : Operand) (op : Operator) (children : List Rule) : Rule :=
  of scope (.iterate (some left) children) op

def dependingOn (r d : Rule) : Rule :=
  { r with dependencies := r.dependencies ++ [d.withScope r.scope] }

/-! ## Editing a node -/

def setOperator (r : Rule) (op : Operator) : Rule :=
  { r with operator := op }

def setDescription (r : Rule) (text : Option String) : Rule :=
  { r with description := text }

def setLeft (r : Rule) (left : Option Operand) : Except Fault Rule :=
  match r.test with
  | .compare c _ right => .ok { r with test := .compare c left right }
  | .iterate _ cs => .ok { r with test := .iterate left cs }
  | .presence _ => .ok { r with test := .presence left }
  | .compound _ => .error (.malformed (label r.kind r.operator) .compoundLeft)

def setRight (r : Rule) (right : Option Operand) : Except Fault Rule :=
  match r.test with
  | .compare c left _ => .ok { r with test := .compare c left right }
  | _ => .error (.malformed (label r.kind r.operator) .noRight)

def setVariable (r : Rule) (name : String) (o : Operand) : Rule :=
  { r with locals := Members.put name o r.locals }

def removeVariable (r : Rule) (name : String) : Rule :=
  { r with locals := Members.remove name r.locals }

def pushChild (r child : Rule) : Option Rule :=
  if r.test.isGroup then
    some { r with test := r.test.withChildren (r.children ++ [child]) }
  else none

def removeChild (r : Rule) (i : Nat) : Option (Rule × Rule) :=
  match r.children[i]? with
  | some child => some (child, { r with test := r.test.withChildren (r.children.eraseIdx i) })
  | none => none

def pushDependency (r d : Rule) : Rule :=
  { r with dependencies := r.dependencies ++ [d] }

def removeDependency (r : Rule) (i : Nat) : Option (Rule × Rule) :=
  match r.dependencies[i]? with
  | some d => some (d, { r with dependencies := r.dependencies.eraseIdx i })
  | none => none

/-! ## Nodes of a tree -/

inductive Branch where
  | child (i : Nat)
  | dependency (i : Nat)
  deriving DecidableEq

def node? (r : Rule) : List Branch → Option Rule
  | [] => some r
  | .child i :: rest => do (← r.children[i]?).node? rest
  | .dependency i :: rest => do (← r.dependencies[i]?).node? rest

def setNode (r node : Rule) : List Branch → Rule
  | [] => node
  | .child i :: rest =>
    { r with test := r.test.withChildren (r.children.modify i (·.setNode node rest)) }
  | .dependency i :: rest =>
    { r with dependencies := r.dependencies.modify i (·.setNode node rest) }

end Verdict.Rule
