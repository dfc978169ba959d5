import Verdict.Calendar.Shift
import Verdict.Rule.Kind

/-!
# Comparing dates

What an operator says about instants. Rules on dates look at days, rules on times at instants.
-/

namespace Verdict

namespace Instant

def orderBy (daily : Bool) (i j : Instant) : Ordering :=
  if daily then i.dayOrder j else i.order j

/-- Not before the one bound and not after the other; a bound that is missing bounds nothing. -/
def inside (daily : Bool) (i : Instant) (low high : Option Instant) : Bool :=
  low.all (fun l => i.orderBy daily l != .lt) && high.all (fun h => i.orderBy daily h != .gt)

end Instant

namespace Operator

def isTemporal : Operator → Bool
  | equal | notEqual | less | greater => true
  | _ => false

def isTemporalExtent : Operator → Bool
  | between | notBetween | includes | notIncludes => true
  | _ => false

def compareInstants (op : Operator) (daily : Bool) (i j : Instant) : Bool :=
  match op with
  | equal => i.orderBy daily j == .eq
  | notEqual => i.orderBy daily j != .eq
  | less => i.orderBy daily j == .lt
  | greater => i.orderBy daily j == .gt
  | _ => false

def compareExtent (op : Operator) (daily : Bool) (i : Instant) (low high : Option Instant) :
    Bool :=
  match op with
  | between | includes => i.inside daily low high
  | _ => !i.inside daily low high

end Operator

end Verdict
