import Verdict.Text.Blank

/-!
# Kinds of rules and their operators

A rule tests one thing: two values, two dates, a group of rules, every element of a collection,
or the presence of a value. Its operator says how.
-/

namespace Verdict

inductive Kind where
  | primitive
  | date
  | time
  | compound
  | iterate
  | presence
  deriving DecidableEq

namespace Kind

def all : List Kind := [primitive, date, time, compound, iterate, presence]

def name : Kind → String
  | primitive => "PRIMITIVE"
  | date => "DATE"
  | time => "TIME"
  | compound => "COMPOUND"
  | iterate => "ITERATE"
  | presence => "EXISTS"

def ofName? (name : String) : Option Kind :=
  all.find? (·.name == name)

def read? (s : String) : Option Kind :=
  ofName? (Text.raiseAscii (Text.trim s))

def isTemporal : Kind → Bool
  | date | time => true
  | _ => false

end Kind

/-- How a rule compares values or combines the results of other rules. -/
inductive Operator where
  | equal
  | notEqual
  | like
  | notLike
  | less
  | greater
  | includes
  | notIncludes
  | isTrue
  | isFalse
  | all
  | notAll
  | any
  | none
  | between
  | notBetween
  | matching
  deriving DecidableEq

namespace Operator

def list : List Operator :=
  [equal, notEqual, like, notLike, less, greater, includes, notIncludes, isTrue, isFalse, all,
    notAll, any, none, between, notBetween, matching]

def name : Operator → String
  | equal => "EQUAL"
  | notEqual => "NOT_EQUAL"
  | like => "LIKE"
  | notLike => "NOT_LIKE"
  | less => "LT"
  | greater => "GT"
  | includes => "INCLUDES"
  | notIncludes => "NOT_INCLUDES"
  | isTrue => "TRUE"
  | isFalse => "FALSE"
  | all => "ALL"
  | notAll => "NOT_ALL"
  | any => "ANY"
  | none => "NONE"
  | between => "BETWEEN"
  | notBetween => "NOT_BETWEEN"
  | matching => "MATCHES"

def ofName? (name : String) : Option Operator :=
  if name == "EQUALS" then some equal
  else if name == "NOT_EQUALS" then some notEqual
  else list.find? (·.name == name)

def read? (s : String) : Option Operator :=
  ofName? (Text.raiseAscii (Text.trim s))

def isLogical : Operator → Bool
  | all | notAll | any | none => true
  | _ => false

def isComparison : Operator → Bool
  | equal | notEqual | like | notLike | less | greater | includes | notIncludes | matching => true
  | _ => false

def isExtent : Operator → Bool
  | between | notBetween => true
  | _ => false

def requiresRight (op : Operator) : Bool :=
  op.isComparison || op.isExtent

end Operator

end Verdict
