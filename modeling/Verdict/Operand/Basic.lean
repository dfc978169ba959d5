import Verdict.Calendar.Shift
import Verdict.Step.Basic

/-!
# Operands

Where a rule finds its values: in the rule itself, at a path of the record, on a day beside the
current one, in the environment, or as an extent of two bounds. Steps may follow. The plain form
is any JSON value; an object names its origin by a tag or by its members.
-/

namespace Verdict

mutual
inductive Origin where
  /-- The record itself. -/
  | record
  | literal (value : Json)
  /-- The first value at a path, or all of them. -/
  | path (text : String) (every : Bool)
  | day (d : RelativeDay)
  | env (name : String)
  /-- From the least to the greatest number of an operand. -/
  | range (inner : Operand)
  /-- Between two bounds, either of which may be missing. -/
  | between (low high : Option Operand)

/-- An origin and the steps that its values go through. -/
structure Operand where
  origin : Origin
  steps : List Step
end

namespace Operand

instance : Inhabited Operand := ⟨⟨.record, []⟩⟩

def of (origin : Origin) : Operand := ⟨origin, []⟩

def literal (v : Json) : Operand := of (.literal v)

def path (text : String) : Operand := of (.path text false)

def withStep (o : Operand) (s : Step) : Operand :=
  { o with steps := o.steps ++ [s] }

def isExtent (o : Operand) : Bool :=
  match o.origin with
  | .range _ | .between .. => true
  | _ => false

/-- All values matter, not only the first. -/
def isPlural (o : Operand) : Bool :=
  o.isExtent || match o.origin with
    | .path _ every => every
    | _ => false

/-! ## Plain form -/

mutual
def toJson : Operand → Json
  | ⟨origin, steps⟩ =>
    .object (members origin ++
      if steps.isEmpty then [] else [("mutate", .arr (steps.map Step.toJson))])

def members : Origin → List (String × Json)
  | .record => []
  | .literal v => [("value", v)]
  | .path text every => ("path", .str text) :: if every then [("all", .bool true)] else []
  | .day d => [("date", .str d.name)]
  | .env name => [("env", .str name)]
  | .range inner => [("between", .object [("range", toJson inner)])]
  | .between low high => [("between", .object (bound "left" low ++ bound "right" high))]

def bound (name : String) : Option Operand → List (String × Json)
  | none => []
  | some o => [(name, toJson o)]
end

/-! ## Reading the plain form -/

/-- What the members of an object say about the origin of its values. Operands inside are kept
in their plain form, which is smaller than the object. -/
inductive Plan (whole : Json) where
  | origin (o : Origin)
  | range (v : Json) (smaller : sizeOf v < sizeOf whole)
  | extent (v : Json) (notLarger : sizeOf v ≤ sizeOf whole)

theorem value?_lt {name : String} {v : Json} :
    {fields : List (String × Json)} → Members.value? name fields = some v →
      sizeOf v < sizeOf (Json.obj fields)
  | (k, w) :: rest, h => by
    unfold Members.value? at h
    split at h
    · cases h
      simp only [Json.obj.sizeOf_spec, List.cons.sizeOf_spec, Prod.mk.sizeOf_spec]
      omega
    · have := value?_lt h
      simp only [Json.obj.sizeOf_spec, List.cons.sizeOf_spec] at this ⊢
      omega

theorem member?_lt {name : String} {v w : Json} (h : w.member? name = some v) :
    sizeOf v < sizeOf w := by
  unfold Json.member? at h
  split at h
  · exact value?_lt h
  · cases h

def malformed {α : Type} (fields : Members Json) (reason : Reason) : Except Fault α :=
  .error (.malformed (Json.obj fields).text reason)

def textAt (fields : Members Json) (name : String) : Option String :=
  (fields.value? name).bind Json.text?

def dayAt (fields : Members Json) : Option RelativeDay :=
  (textAt fields "date").bind RelativeDay.ofName?

def every (fields : Members Json) : Bool :=
  (fields.value? "all").any Json.truthy

def rangePlan (fields : Members Json) : Except Fault (Plan (.obj fields)) :=
  match h : Members.value? "range" fields with
  | some v => .ok (.range v (value?_lt h))
  | none =>
    match hb : Members.value? "between" fields with
    | none => malformed fields .rangeMissing
    | some b =>
      match hr : b.member? "range" with
      | some v => .ok (.range v (Nat.lt_trans (member?_lt hr) (value?_lt hb)))
      | none => malformed fields .rangeMissing

def extentPlan (fields : Members Json) : Plan (.obj fields) :=
  match h : Members.value? "between" fields with
  | some v => .extent v (Nat.le_of_lt (value?_lt h))
  | none => .extent (.obj fields) (Nat.le_refl _)

/-- Without a tag the first of these members counts: bounds, the name of a variable, a day, a
path in one of three spellings, a literal. -/
def inferredPlan (fields : Members Json) : Plan (.obj fields) :=
  match h : Members.value? "between" fields with
  | some (.obj bounds) => .extent (.obj bounds) (Nat.le_of_lt (value?_lt h))
  | _ =>
    match textAt fields "env", dayAt fields, textAt fields "path", textAt fields "get",
      textAt fields "collect", fields.value? "value" with
    | some name, _, _, _, _, _ => .origin (.env name)
    | none, some d, _, _, _, _ => .origin (.day d)
    | none, none, some p, _, _, _ => .origin (.path p (every fields))
    | none, none, none, some p, _, _ => .origin (.path p false)
    | none, none, none, none, some p, _ => .origin (.path p true)
    | none, none, none, none, none, some v => .origin (.literal v)
    | none, none, none, none, none, none => .origin .record

def plan (fields : Members Json) : Except Fault (Plan (.obj fields)) :=
  match (textAt fields "type").map Text.raiseAscii with
  | some "VALUE" => .ok (.origin (.literal ((fields.value? "value").getD .null)))
  | some "PATH" =>
    match textAt fields "path" with
    | some p => .ok (.origin (.path p (every fields)))
    | none => malformed fields .pathMissing
  | some "DATE" =>
    match dayAt fields with
    | some d => .ok (.origin (.day d))
    | none => malformed fields .dayMissing
  | some "ENV" =>
    match textAt fields "env" with
    | some name => .ok (.origin (.env name))
    | none => malformed fields .variableMissing
  | some "RANGE" => rangePlan fields
  | some "BETWEEN" => .ok (extentPlan fields)
  | some "PASSTHRU" | some "PASSTHROUGH" => .ok (.origin .record)
  | _ => .ok (inferredPlan fields)

def readSteps (v : Option Json) : Except Fault (List Step) :=
  match v with
  | none | some .null => .ok []
  | some (.arr items) => items.mapM Step.ofJson
  | some s => do return [← Step.ofJson s]

mutual
/-- Reads the plain form; what is no object is a literal. -/
def ofJson (v : Json) : Except Fault Operand :=
  match v with
  | .obj fields => do
    let origin ← match ← plan fields with
      | .origin o => .ok o
      | .range inner _smaller => (ofJson inner).map Origin.range
      | .extent bounds _notLarger => readExtent bounds
    return ⟨origin, ← readSteps (Members.value? "mutate" fields)⟩
  | v => .ok (literal v)
  termination_by (sizeOf v, 2, 0)
  decreasing_by
  · exact Prod.Lex.left _ _ _smaller
  · rcases Nat.lt_or_eq_of_le _notLarger with h | h
    · exact Prod.Lex.left _ _ h
    · rw [h]; exact Prod.Lex.right _ (Prod.Lex.left _ _ (by decide))

def readExtent (v : Json) : Except Fault Origin :=
  match _hr : v.member? "range" with
  | some .null => readBounds v
  | some range => (ofJson range).map Origin.range
  | none => readBounds v
  termination_by (sizeOf v, 1, 0)
  decreasing_by
  · exact Prod.Lex.right _ (Prod.Lex.left _ _ (by decide))
  · exact Prod.Lex.left _ _ (member?_lt _hr)
  · exact Prod.Lex.right _ (Prod.Lex.left _ _ (by decide))

def readBounds (v : Json) : Except Fault Origin :=
  match readBound v "left" with
  | .error e => .error e
  | .ok low => (readBound v "right").map (Origin.between low ·)
  termination_by (sizeOf v, 0, 1)

def readBound (v : Json) (name : String) : Except Fault (Option Operand) :=
  match _h : v.member? name with
  | none => .ok none
  | some .null => .ok none
  | some b => (ofJson b).map some
  termination_by (sizeOf v, 0, 0)
  decreasing_by exact Prod.Lex.left _ _ (member?_lt _h)
end

end Operand

end Verdict
