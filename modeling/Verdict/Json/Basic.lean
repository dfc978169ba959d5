import Verdict.Decimal.Binary

/-!
# JSON values

Numbers keep their kind: an integer and a double are different values even when they denote the
same number. Members of an object stand in the order of their names.
-/

namespace Verdict

/-- A JSON number: an integer, or a double that is finite. -/
inductive Number where
  | int (n : Int)
  | float (x : Float) (finite : x.isFinite = true)
  deriving DecidableEq

namespace Number

def toFloat : Number → Float
  | int n => Float.ofInt n
  | float x _ => x

/-- Equal numbers of one kind; the two zeros of the doubles are equal. -/
def same : Number → Number → Bool
  | int a, int b => a == b
  | float a _, float b _ => a == b
  | _, _ => false

end Number

inductive Json where
  | null
  | bool (b : Bool)
  | num (n : Number)
  | str (s : String)
  | arr (items : List Json)
  | obj (members : List (String × Json))

namespace Json

instance : Inhabited Json := ⟨null⟩

mutual
def same : Json → Json → Bool
  | null, null => true
  | bool a, bool b => a == b
  | num a, num b => a.same b
  | str a, str b => a == b
  | arr a, arr b => sameItems a b
  | obj a, obj b => sameMembers a b
  | _, _ => false

private def sameItems : List Json → List Json → Bool
  | [], [] => true
  | a :: as, b :: bs => a.same b && sameItems as bs
  | _, _ => false

private def sameMembers : List (String × Json) → List (String × Json) → Bool
  | [], [] => true
  | (j, a) :: as, (k, b) :: bs => j == k && a.same b && sameMembers as bs
  | _, _ => false
end

instance : BEq Json := ⟨same⟩

def ofInt (n : Int) : Json :=
  num (.int n)

/-- The result of a computation: whole numbers of moderate size become integers, and what is
not finite becomes null. -/
def ofFloat (x : Float) : Json :=
  if h : x.isFinite = true then
    let b := Decimal.Binary.ofFloat x
    if b.isWhole && b.truncate.natAbs < Decimal.tenTo 15 then ofInt b.truncate
    else num (.float x h)
  else null

def isNull : Json → Bool
  | null => true
  | _ => false

def isObject : Json → Bool
  | obj _ => true
  | _ => false

def text? : Json → Option String
  | str s => some s
  | _ => none

end Json

/-! ## Members of an object -/

/-- A finite map from names to values, in the order of the names. -/
abbrev Members (α : Type) := List (String × α)

namespace Members

variable {α : Type}

def value? (name : String) : Members α → Option α
  | [] => none
  | (k, v) :: rest => if k = name then some v else value? name rest

def put (name : String) (value : α) : Members α → Members α
  | [] => [(name, value)]
  | (k, v) :: rest =>
    if name < k then (name, value) :: (k, v) :: rest
    else if k = name then (name, value) :: rest
    else (k, v) :: put name value rest

def remove (name : String) : Members α → Members α
  | [] => []
  | (k, v) :: rest => if k = name then rest else (k, v) :: remove name rest

def overlay (base top : Members α) : Members α :=
  top.foldr (fun pair members => put pair.1 pair.2 members) base

/-- Members given in any order; the last of several bindings of one name counts. -/
def gather (pairs : List (String × α)) : Members α :=
  pairs.foldl (fun members pair => put pair.1 pair.2 members) []

def names (members : Members α) : List String :=
  members.map (·.1)

end Members

namespace Json

def member? (name : String) : Json → Option Json
  | obj members => Members.value? name members
  | _ => none

def object (pairs : List (String × Json)) : Json :=
  obj (Members.gather pairs)

end Json

end Verdict
