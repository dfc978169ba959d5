import Verdict.Operand.Basic
import Verdict.Step.Pipeline

/-!
# Getters

An operand made ready: its paths are read and its steps prepared, so that fetching values from
a record needs neither text nor caches.
-/

namespace Verdict

abbrev Environment := Members Json

/-- An operand that is ready to fetch values. -/
inductive Getter where
  /-- No operand, no value. -/
  | absent
  | record
  | literal (value : Json)
  | first (p : Path)
  | every (p : Path)
  | day (d : RelativeDay)
  | env (name : String)
  | range (inner : Getter)
  | between (low high : Getter)
  /-- Through a pipeline, of which all values or the first one counts. -/
  | through (inner : Getter) (pipeline : Pipeline) (plural : Bool)

namespace Operand

def blame (o : Operand) {α : Type} (work : Work α) : Work α :=
  fun s =>
    match work s with
    | (.error f, s) =>
      match f with
      | .unresolved .. => (.error f, s)
      | _ => (.error (if f.isStructural then f else .unresolved o.toJson.text f), s)
    | done => done

mutual
/-- Makes an operand ready for a kind of rule in a scope: first its origin, then its steps. -/
def compile (kind : Kind) (scope : ScopeId) : Operand → Work Getter
  | ⟨origin, steps⟩ => blame ⟨origin, steps⟩ do
    let getter ← compileOrigin kind scope origin
    if steps.isEmpty then return getter
    return .through getter (← Pipeline.compile steps kind scope)
      (isPlural ⟨origin, steps⟩)

def compileOrigin (kind : Kind) (scope : ScopeId) : Origin → Work Getter
  | .record => return .record
  | .literal v => return .literal v
  | .path text every => do
    let p ← Work.path scope text
    return if every then .every p else .first p
  | .day d => return .day d
  | .env name => return .env name
  | .range inner => return .range (← compile kind scope inner)
  | .between low high => do
    let low ← compileBound kind scope low
    let high ← compileBound kind scope high
    return .between low high

def compileBound (kind : Kind) (scope : ScopeId) : Option Operand → Work Getter
  | none => return .absent
  | some o => compile kind scope o
end

def compile? (kind : Kind) (scope : ScopeId) (o : Option Operand) : Work Getter :=
  match o with
  | none => return .absent
  | some o => o.compile kind scope

end Operand

namespace Getter

/-- The least and the greatest number of nested lists; two nulls unless all are numbers. -/
def bounds (v : Option Json) : Json :=
  let xs := do
    let v ← v
    if v.isNull then none
    let xs ← Action.numbers? (Json.arr v.elements).leaves
    if xs.isEmpty then none else some xs
  match xs with
  | some xs => .arr [.ofFloat (Action.minimum xs), .ofFloat (Action.maximum xs)]
  | none => .arr [.null, .null]

def value (now : Instant) (record : Json) (env : Environment) : Getter → Option Json
  | .absent => none
  | .record => some record
  | .literal v => some v
  | .first p => p.first? record
  | .every p => some (.arr (p.execute record))
  | .day d => some (.ofInstant (d.resolve now))
  | .env name => env.value? name
  | .range inner => some (bounds (inner.value now record env))
  | .between low high =>
    some (.arr [(low.value now record env).getD .null, (high.value now record env).getD .null])
  | .through inner pipeline plural =>
    let values := pipeline.apply (inner.value now record env)
    if plural then some (.arr values) else values.head?

end Getter

end Verdict
