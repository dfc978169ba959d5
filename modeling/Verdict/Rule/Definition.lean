import Verdict.Json.Document

/-!
# Definitions

The plain form of a tree of rules, as it is stored and sent. Names and operands are kept as they
are given; whether they make sense is decided when a rule is made of the definition.
-/

namespace Verdict

structure Definition where
  description : Option String := none
  left : Option Json := none
  right : Option Json := none
  kind : Option String := none
  operator : Option String := none
  locals : Option (List (String × Json)) := none
  dependencies : Option (List Definition) := none
  conditions : Option (List Definition) := none

namespace Definition

instance : Inhabited Definition := ⟨{}⟩

/-- The members of a definition, in the order in which they may stand in a list. -/
def fieldNames : List String :=
  ["description", "left", "right", "type", "operator", "variables", "dependencies", "conditions"]

/-! ## Reading -/

def text? : Json → Option (Option String)
  | .null => some none
  | .str s => some (some s)
  | _ => none

def value? : Json → Option Json
  | .null => none
  | v => some v

def members? : Json → Option (Option (List (String × Json)))
  | .null => some none
  | .obj ms => some (some ms)
  | _ => none

mutual
/-- Reads a definition: an object, whose other members do not count, or a list of the members in
their order. Null stands for what is not given. -/
def ofJson : Json → Option Definition
  | .obj fields => ofFields {} fields
  | .arr items => if items.length ≤ 8 then ofPositions {} fieldNames items else none
  | _ => none

def ofField (d : Definition) (name : String) : Json → Option Definition
  | .arr items =>
    match name with
    | "dependencies" => do return { d with dependencies := some (← ofItems items) }
    | "conditions" => do return { d with conditions := some (← ofItems items) }
    | "left" => some { d with left := some (.arr items) }
    | "right" => some { d with right := some (.arr items) }
    | "description" | "type" | "operator" | "variables" => none
    | _ => some d
  | v =>
    match name with
    | "description" => do return { d with description := ← text? v }
    | "left" => some { d with left := value? v }
    | "right" => some { d with right := value? v }
    | "type" => do return { d with kind := ← text? v }
    | "operator" => do return { d with operator := ← text? v }
    | "variables" => do return { d with locals := ← members? v }
    | "dependencies" => if v.isNull then some { d with dependencies := none } else none
    | "conditions" => if v.isNull then some { d with conditions := none } else none
    | _ => some d

def ofFields (d : Definition) : List (String × Json) → Option Definition
  | [] => some d
  | (name, v) :: rest => do ofFields (← ofField d name v) rest

def ofPositions (d : Definition) : List String → List Json → Option Definition
  | name :: names, v :: rest => do ofPositions (← ofField d name v) names rest
  | _, [] => some d
  | [], _ => none

def ofItems : List Json → Option (List Definition)
  | [] => some []
  | v :: rest => do
    let d ← ofJson v
    return d :: (← ofItems rest)
end

/-! ## Reading text -/

mutual
/-- The value of a document that spells a definition. A member may be given once only; what
stands under other names is not looked at. -/
private def spelled (depth : Nat) : Document → Option Json
  | .object members =>
    if depth = 0 then none else (spelledFields (depth - 1) [] members).map Json.object
  | .array items =>
    if depth = 0 ∨ 8 < items.length then none
    else (spelledPositions (depth - 1) fieldNames items).map Json.object
  | _ => none

private def spelledField (depth : Nat) (nested : Bool) : Document → Option Json
  | .array items =>
    if depth = 0 then none
    else if nested then (spelledItems (depth - 1) items).map Json.arr
    else (Document.array items).value? depth
  | d => d.value? depth

private def spelledFields (depth : Nat) (seen : List String) :
    List (Option String × Document) → Option (List (String × Json))
  | [] => some []
  | (name, d) :: rest =>
    match name with
    | none => none
    | some name =>
      if !fieldNames.contains name then spelledFields depth seen rest
      else if seen.contains name then none
      else do
        let v ← spelledField depth (name == "dependencies" || name == "conditions") d
        return (name, v) :: (← spelledFields depth (name :: seen) rest)

private def spelledPositions (depth : Nat) :
    List String → List Document → Option (List (String × Json))
  | name :: names, d :: rest => do
    let v ← spelledField depth (name == "dependencies" || name == "conditions") d
    return (name, v) :: (← spelledPositions depth names rest)
  | _, _ => some []

private def spelledItems (depth : Nat) : List Document → Option (List Json)
  | [] => some []
  | d :: rest => do
    let v ← spelled depth d
    return v :: (← spelledItems depth rest)
end

def ofText (s : String) : Option Definition := do
  ofJson (← spelled Document.maxNesting (← Document.read s))

/-! ## Writing -/

def field (name : String) (v : Option Json) : List (String × Json) :=
  match v with
  | some v => [(name, v)]
  | none => []

mutual
def toJson : Definition → Json
  | ⟨description, left, right, kind, operator, locals, dependencies, conditions⟩ =>
    .object <|
      field "description" (description.map .str) ++ field "left" left ++ field "right" right
        ++ field "type" (kind.map .str) ++ field "operator" (operator.map .str)
        ++ field "variables" (locals.map .obj)
        ++ children "dependencies" dependencies ++ children "conditions" conditions

def children (name : String) : Option (List Definition) → List (String × Json)
  | some ds => [(name, .arr (toItems ds))]
  | none => []

def toItems : List Definition → List Json
  | [] => []
  | d :: rest => toJson d :: toItems rest
end

end Definition

end Verdict
