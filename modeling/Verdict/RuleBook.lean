import Verdict.Rule.Compile

/-!
# Rule books

Rules by their names, all in one scope. A rule is entered only if it compiles; if it does not, or
if its definition cannot be read, the book stays as it is.
-/

namespace Verdict

/-- Rules by their names, in the order of the names. -/
structure RuleBook where
  scope : ScopeId
  rules : Members Rule := []

namespace RuleBook

def size (b : RuleBook) : Nat :=
  b.rules.length

def ids (b : RuleBook) : List String :=
  Members.names b.rules

def find? (b : RuleBook) (id : String) : Option Rule :=
  Members.value? id b.rules

def contains (b : RuleBook) (id : String) : Bool :=
  (b.find? id).isSome

private def enter (b : RuleBook) (id : String) (r : Rule) : Work RuleBook :=
  fun s =>
    match r.compile false s with
    | ((.error f, _), s) => (.error f, s)
    | ((.ok _, r), s) => (.ok { b with rules := Members.put id r b.rules }, s)

def loadRule (b : RuleBook) (id : String) (r : Rule) : Work RuleBook :=
  b.enter id (r.withScope b.scope)

def load (b : RuleBook) (id : String) (d : Definition) : Work RuleBook := do
  let r ← Rule.ofDefinition b.scope d
  b.enter id r

def loadText (b : RuleBook) (id text : String) : Work RuleBook :=
  match Definition.ofText text with
  | some d => b.load id d
  | none => throw .unreadableJson

def replace (b : RuleBook) (id : String) (d : Definition) : Work RuleBook :=
  if b.contains id then b.load id d else throw (.ruleMissing id)

def remove (b : RuleBook) (id : String) : Except Fault RuleBook :=
  if b.contains id then .ok { b with rules := Members.remove id b.rules }
  else .error (.ruleMissing id)

def clear (b : RuleBook) : RuleBook :=
  { b with rules := [] }

/-- Enters definitions one by one; those that fail are passed over. The names that were entered
come with the book, in order. -/
def loadAll (b : RuleBook) :
    List (String × Definition) → StateM Session (List String × RuleBook)
  | [] => return ([], b)
  | (id, d) :: rest => do
    match ← (b.load id d).run with
    | .error _ => b.loadAll rest
    | .ok b =>
      let (ids, b) ← b.loadAll rest
      return (id :: ids, b)

def evaluate (b : RuleBook) (now : Instant) (id : String) (record : Json) (env : Environment) :
    StateM Session (Except Fault Trace × RuleBook) := do
  match b.find? id with
  | none => return (.error (.ruleMissing id), b)
  | some r =>
    let (result, r) ← r.evaluate now record env
    return (result, { b with rules := Members.put id r b.rules })

end RuleBook

end Verdict
