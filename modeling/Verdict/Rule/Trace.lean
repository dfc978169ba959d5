import Verdict.Json.Basic
import Verdict.Rule.Kind

/-!
# Traces

What an evaluation found out, rule by rule: the result with the values, elements and results that
led to it.
-/

namespace Verdict

structure Trace where
  kind : Option Kind := none
  operator : Option Operator := none
  environment : Option (List (String × Json)) := none
  left : Option Json := none
  right : Option Json := none
  result : Bool
  results : Option (List Trace) := none
  targets : Option (List Json) := none
  dependencies : Option Bool := none
  dependencyTraces : Option (List Trace) := none

namespace Trace

instance : Inhabited Trace := ⟨{ result := true }⟩

/-- An empty rule holds and has nothing else to tell. -/
def pass : Trace := { result := true }

def of (kind : Kind) (op : Operator) (env : Members Json) (result : Bool) : Trace :=
  { kind := some kind, operator := some op, environment := some env, result }

private def field (name : String) (v : Option Json) : List (String × Json) :=
  match v with
  | some v => [(name, v)]
  | none => []

mutual
/-- The members of a trace in their fixed order; what is not there is left out. -/
def toJson : Trace → Json
  | ⟨kind, operator, environment, left, right, result, results, targets, dependencies, traces⟩ =>
    .obj <|
      field "type" (kind.map fun k => .str k.name)
        ++ field "operator" (operator.map fun op => .str op.name)
        ++ field "environment" (environment.map .obj)
        ++ field "left" left ++ field "right" right ++ [("result", .bool result)]
        ++ nested "results" results ++ field "targets" (targets.map .arr)
        ++ field "dependencies" (dependencies.map .bool)
        ++ nested "dependencyConditions" traces

private def nested (name : String) : Option (List Trace) → List (String × Json)
  | none => []
  | some ts => [(name, .arr (toItems ts))]

private def toItems : List Trace → List Json
  | [] => []
  | t :: rest => toJson t :: toItems rest
end

end Trace

end Verdict
