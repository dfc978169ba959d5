import Mathlib.Logic.Function.Basic
import Verdict.RuleBook

/-!
# Catalogues of definitions

What rule books are meant to be: finite maps from names to definitions.  A definition is bound to a
name if it can be read and compiled, and it is evaluated as if it were the only one: neither other
rules nor what the caches of the scope hold can be told from the answers.
-/

namespace Verdict.RuleBook

/-! ## Operations -/

/-- What can be asked of a rule book. -/
inductive Operation where
  | load (id : String) (d : Definition)
  | loadText (id text : String)
  | loadRule (id : String) (r : Rule)
  | replace (id : String) (d : Definition)
  | loadAll (pairs : List (String × Definition))
  | remove (id : String)
  | clear
  | get (id : String)
  | contains (id : String)
  | ids
  | size
  | evaluate (now : Instant) (id : String) (record : Json) (env : Environment)

inductive Answer where
  | done
  | fault (f : Fault)
  | loaded (ids : List String)
  | rule (r : Option Rule)
  | flag (b : Bool)
  | names (ids : List String)
  | number (n : Nat)
  | trace (t : Trace)

def Answer.ofCheck : Except Fault Unit → Answer
  | .ok _ => done
  | .error f => fault f

def Answer.ofTrace : Except Fault Trace → Answer
  | .ok t => trace t
  | .error f => fault f

/-- The book after work that may fail, which leaves it as it was then. -/
def attempt (b : RuleBook) (w : Work RuleBook) : StateM Session (Answer × RuleBook) := do
  match ← w.run with
  | .ok b => return (.done, b)
  | .error f => return (.fault f, b)

def perform (b : RuleBook) : Operation → StateM Session (Answer × RuleBook)
  | .load id d => b.attempt (b.load id d)
  | .loadText id text => b.attempt (b.loadText id text)
  | .loadRule id r => b.attempt (b.loadRule id r)
  | .replace id d => b.attempt (b.replace id d)
  | .loadAll pairs => do
    let (ids, b) ← b.loadAll pairs
    return (.loaded ids, b)
  | .remove id => b.attempt (liftM (b.remove id))
  | .clear => return (.done, b.clear)
  | .get id => return (.rule (b.find? id), b)
  | .contains id => return (.flag (b.contains id), b)
  | .ids => return (.names b.ids, b)
  | .size => return (.number b.size, b)
  | .evaluate now id record env => do
    let (result, b) ← b.evaluate now id record env
    return (.ofTrace result, b)

def performAll (b : RuleBook) : List Operation → StateM Session (List Answer × RuleBook)
  | [] => return ([], b)
  | op :: rest => do
    let (answer, b) ← b.perform op
    let (answers, b) ← b.performAll rest
    return (answer :: answers, b)

/-! ## Catalogues -/

/-- What a rule book is a rendering of: names and definitions. -/
abbrev Catalogue := String → Option Definition

namespace Catalogue

def bind (m : Catalogue) (id : String) (d : Definition) : Catalogue :=
  Function.update m id (some d)

def bindAll (m : Catalogue) (pairs : List (String × Definition)) : Catalogue :=
  pairs.foldl (fun m p => m.bind p.1 p.2) m

/-- The names that are bound, each of them once. -/
def Lists (m : Catalogue) (ids : List String) : Prop :=
  ids.Nodup ∧ ∀ id, id ∈ ids ↔ (m id).isSome = true

end Catalogue

section Spec

variable (blank : Session) (scope : ScopeId)

/-- Whether a definition can be read and compiled, in a session where nothing else is known. -/
def admission (d : Definition) : Except Fault Unit := do
  let r ← Rule.ofDefinition scope d
  (r.compile false blank).1.1.map fun _ => ()

def admits (d : Definition) : Bool :=
  (admission blank scope d).isOk

def admitted (pairs : List (String × Definition)) : List (String × Definition) :=
  pairs.filter fun p => admits blank scope p.2

/-- What evaluating a definition comes to in a session where nothing else is known. -/
def evaluation (d : Definition) (now : Instant) (record : Json) (env : Environment) :
    Except Fault Trace := do
  let r ← Rule.ofDefinition scope d
  (r.evaluate now record env blank).1.1

namespace Catalogue

variable (m : Catalogue)

def offers : Operation → List (String × Definition)
  | .load id d => [(id, d)]
  | .loadText id text => ((Definition.ofText text).map (id, ·)).toList
  | .loadRule id r => [(id, r.toDefinition)]
  | .replace id d => if (m id).isSome then [(id, d)] else []
  | .loadAll pairs => pairs
  | _ => []

def bindings (op : Operation) : List (String × Definition) :=
  admitted blank scope (m.offers op)

def after (op : Operation) : Catalogue :=
  match op with
  | .remove id => Function.update m id none
  | .clear => fun _ => none
  | op => m.bindAll (m.bindings blank scope op)

/-- After the operation a name need not be bound to what it was bound to. -/
def Renews (op : Operation) (id : String) : Prop :=
  (∃ d, (id, d) ∈ m.bindings blank scope op) ∨ op = .remove id ∨ op = .clear

def afterAll (ops : List Operation) : Catalogue :=
  ops.foldl (fun m op => m.after blank scope op) fun _ => none

/-- The answers to an operation.  A stored rule is the one that its definition describes, but for
the checks kept in it. -/
def Answers : Operation → Answer → Prop
  | .load _ d, a => a = .ofCheck (admission blank scope d)
  | .loadText _ text, a => a = .ofCheck (match Definition.ofText text with
    | some d => admission blank scope d
    | none => .error .unreadableJson)
  | .loadRule _ r, a => a = .ofCheck (admission blank scope r.toDefinition)
  | .replace id d, a => a = .ofCheck (match m id with
    | some _ => admission blank scope d
    | none => .error (.ruleMissing id))
  | .loadAll pairs, a => a = .loaded ((admitted blank scope pairs).map (·.1))
  | .remove id, a => a = .ofCheck (match m id with
    | some _ => .ok ()
    | none => .error (.ruleMissing id))
  | .clear, a => a = .done
  | .get id, a => match m id with
    | some d => ∃ r, a = .rule (some r) ∧ Rule.ofDefinition scope d = .ok (r.withScope scope)
    | none => a = .rule none
  | .contains id, a => a = .flag (m id).isSome
  | .ids, a => ∃ names, m.Lists names ∧ a = .names names
  | .size, a => ∃ names, m.Lists names ∧ a = .number names.length
  | .evaluate now id record env, a => a = .ofTrace (match m id with
    | some d => evaluation blank scope d now record env
    | none => .error (.ruleMissing id))

end Catalogue

end Spec

end Verdict.RuleBook
