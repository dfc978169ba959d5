import Verdict.Cache
import Verdict.Fault
import Verdict.Json.Order
import Verdict.Pattern.Basic

/-!
# Comparing by operator

What each operator says about two values, and how logical operators combine results. Patterns may
come from a cache.
-/

namespace Verdict

namespace Pattern

def stripDelimiters (text : String) : String :=
  match text.toList with
  | '/' :: rest =>
    match rest.reverse with
    | '/' :: inner => String.ofList inner.reverse
    | _ => text
  | _ => text

def build (text : String) : Except Fault Pattern :=
  match compile text with
  | some p => .ok p
  | none => .error (.invalidPattern text)

/-- The pattern that a text spells between slashes or without them. -/
def buildDelimited (text : String) : Except Fault Pattern :=
  build (stripDelimiters text)

def accepts (p : Pattern) : Json → Bool
  | .str s => p.isMatch s
  | _ => false

end Pattern

namespace Operator

private def shareElement (a b : Json) : Bool :=
  a.elements.any fun x => b.elements.any fun y => x.equal y

/-- A bound: nothing where it is missing or null, so that the value is unbounded there. -/
private def bound? : Option Json → Option (Option Float)
  | .none => some .none
  | some .null => some .none
  | some v => v.number?.map some

/-- Whether a number lies between the first two elements of a value; undecided unless the value
and both bounds are numbers. -/
def inside? (point bounds : Json) : Option Bool := do
  let x ← point.number?
  let low ← bound? bounds.elements[0]?
  let high ← bound? bounds.elements[1]?
  return (low.all fun l => l ≤ x) && (high.all fun h => x ≤ h)

def compare (op : Operator) (a b : Json) : Except Fault Bool :=
  match op with
  | equal => .ok (a.equal b)
  | notEqual => .ok (!a.equal b)
  | like => .ok (a.alike b)
  | notLike => .ok (!a.alike b)
  | less => .ok (a.order b == .lt)
  | greater => .ok (a.order b == .gt)
  | includes => .ok (shareElement a b)
  | notIncludes => .ok (!shareElement a b)
  | isTrue => .ok a.truthy
  | isFalse => .ok (!a.truthy)
  | between => .ok ((inside? a b).getD false)
  | notBetween => .ok (((inside? a b).map (!·)).getD false)
  | matching => (Pattern.buildDelimited b.form).map (·.accepts a)
  | all | notAll | any | none => .error (.malformed op.name .logicalComparison)

def compareWith (op : Operator) (a b : Json) (patterns : Cache Pattern) (fresh : Nat) :
    Except Fault Bool × Cache Pattern × Nat :=
  match op with
  | matching =>
    let (p, patterns, fresh) := patterns.fetch Pattern.buildDelimited b.form fresh
    (p.map (·.value.accepts a), patterns, fresh)
  | _ => (op.compare a b, patterns, fresh)

def combine (op : Operator) (results : List Bool) : Except Fault Bool :=
  match op with
  | all => .ok (results.all id)
  | notAll => .ok (!results.all id)
  | any => .ok (results.any id)
  | none => .ok (!results.any id)
  | _ => .error (.malformed op.name .comparisonCombination)

end Operator

end Verdict
