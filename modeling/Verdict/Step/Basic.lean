import Verdict.Fault
import Verdict.Json.Scalar

/-!
# Steps

A step changes values between where they are found and where they are compared. Its plain form is
a JSON object that names the kind of the step and its parameters.
-/

namespace Verdict

/-- What a step does, with its parameters. -/
inductive Action where
  | add (amount : Json)
  | subtract (amount : Json)
  | multiply (factor : Json)
  | divide (divisor : Json)
  | sum
  | min
  | max
  | abs
  | range
  | average
  | length
  | regexp (pattern replacement : Option String)
  | get (path : String)
  | collect (path : String)
  | split (delimiter : Option String)
  | slice (start stop : Option Int64)
  | first
  | last
  | flatten
  | number
  | text (locale : Option String) (least most : Option UInt64)
  | date (format : Option String)
  | lowercase
  | uppercase
  | table (entries : List (String × Json))
  | measurement (assume target : Option String)
  | custom (code : String)

/-- A step works on every value by itself, or once on the list of all values. -/
structure Step where
  action : Action
  whole : Bool := false

namespace Action

def kind : Action → String
  | add _ => "ADD"
  | subtract _ => "SUB"
  | multiply _ => "MUL"
  | divide _ => "DIV"
  | sum => "SUM"
  | min => "MIN"
  | max => "MAX"
  | abs => "ABS"
  | range => "RANGE"
  | average => "AVG"
  | length => "LENGTH"
  | regexp .. => "REGEXP"
  | get _ => "GET"
  | collect _ => "COLLECT"
  | split _ => "SPLIT"
  | slice .. => "SLICE"
  | first => "FIRST"
  | last => "LAST"
  | flatten => "FLATTEN"
  | number => "NUMBER"
  | text .. => "STRING"
  | date _ => "DATE"
  | lowercase => "LOWERCASE"
  | uppercase => "UPPERCASE"
  | table _ => "TABLE"
  | measurement .. => "MEASUREMENT"
  | custom _ => "CUSTOM"

def kinds : List String :=
  ["ADD", "SUB", "MUL", "DIV", "SUM", "MIN", "MAX", "ABS", "RANGE", "AVG", "LENGTH", "REGEXP",
    "GET", "COLLECT", "SPLIT", "SLICE", "FIRST", "LAST", "FLATTEN", "NUMBER", "STRING", "DATE",
    "LOWERCASE", "UPPERCASE", "TABLE", "MEASUREMENT", "CUSTOM"]

/-! ## Plain form -/

def optional (name : String) (value : Option Json) : List (String × Json) :=
  match value with
  | some v => [(name, v)]
  | none => []

def optionalText (name : String) (value : Option String) : List (String × Json) :=
  optional name (value.map .str)

def optionalInt (name : String) (value : Option Int) : List (String × Json) :=
  optional name (value.map .ofInt)

/-- The parameters of an action; those that are not given are left out. -/
def parameters : Action → List (String × Json)
  | add v | subtract v | multiply v | divide v => [("value", v)]
  | regexp pattern replacement =>
    optionalText "pattern" pattern ++ optionalText "replace" replacement
  | get path | collect path => [("path", .str path)]
  | split delimiter => optionalText "delimiter" delimiter
  | slice start stop =>
    optionalInt "start" (start.map Int64.toInt) ++ optionalInt "end" (stop.map Int64.toInt)
  | text locale least most =>
    optionalText "locale" locale
      ++ optionalInt "minimumFractionDigits" (least.map fun n => n.toNat)
      ++ optionalInt "maximumFractionDigits" (most.map fun n => n.toNat)
  | date format => optionalText "format" format
  | table entries => [("table", .obj entries)]
  | measurement assume target => optionalText "assume" assume ++ optionalText "target" target
  | custom code => [("code", .str code)]
  | _ => []

/-! ## Reading parameters -/

abbrev Read := Except Fault

def unreadable {α : Type} : Read α :=
  .error .unreadableJson

def text? (fields : Members Json) (name : String) : Read (Option String) :=
  match fields.value? name with
  | none | some .null => .ok none
  | some (.str s) => .ok (some s)
  | some _ => unreadable

def int? (fields : Members Json) (name : String) (low high : Int) : Read (Option Int) :=
  match fields.value? name with
  | none | some .null => .ok none
  | some (.num (.int n)) => if low ≤ n ∧ n ≤ high then .ok (some n) else unreadable
  | some _ => unreadable

def index? (fields : Members Json) (name : String) : Read (Option Int64) :=
  (int? fields name (-(Word.signedLimit : Int)) (Word.signedLimit - 1)).map (·.map Int64.ofInt)

def count? (fields : Members Json) (name : String) : Read (Option UInt64) :=
  (int? fields name 0 (Word.unsignedLimit - 1)).map (·.map fun n => UInt64.ofNat n.toNat)

def requiredText (fields : Members Json) (name : String) : Read String :=
  match fields.value? name with
  | some (.str s) => .ok s
  | _ => unreadable

def ofParameters (kind : String) (fields : Members Json) : Read Action :=
  let value := (fields.value? "value").getD .null
  match kind with
  | "ADD" => .ok (add value)
  | "SUB" => .ok (subtract value)
  | "MUL" => .ok (multiply value)
  | "DIV" => .ok (divide value)
  | "SUM" => .ok sum
  | "MIN" => .ok min
  | "MAX" => .ok max
  | "ABS" => .ok abs
  | "RANGE" => .ok range
  | "AVG" => .ok average
  | "LENGTH" => .ok length
  | "REGEXP" => do return regexp (← text? fields "pattern") (← text? fields "replace")
  | "GET" => do return get (← requiredText fields "path")
  | "COLLECT" => do return collect (← requiredText fields "path")
  | "SPLIT" => do return split (← text? fields "delimiter")
  | "SLICE" => do return slice (← index? fields "start") (← index? fields "end")
  | "FIRST" => .ok first
  | "LAST" => .ok last
  | "FLATTEN" => .ok flatten
  | "NUMBER" => .ok number
  | "STRING" => do
    return text (← text? fields "locale") (← count? fields "minimumFractionDigits")
      (← count? fields "maximumFractionDigits")
  | "DATE" => do return date (← text? fields "format")
  | "LOWERCASE" => .ok lowercase
  | "UPPERCASE" => .ok uppercase
  | "TABLE" =>
    match fields.value? "table" with
    | none => .ok (table [])
    | some (.obj entries) => .ok (table entries)
    | some _ => unreadable
  | "MEASUREMENT" => do
    return measurement (← text? fields "assume") (← text? fields "target")
  | "CUSTOM" =>
    match fields.value? "code" with
    | none => .ok (custom "")
    | some (.str s) => .ok (custom s)
    | some _ => unreadable
  | _ => .error (.unknownStep kind)

end Action

namespace Step

def toJson (s : Step) : Json :=
  .object (("type", .str s.action.kind) :: s.action.parameters ++
    if s.whole then [("all", .bool true)] else [])

def either (fields : Members Json) (name other : String) : Option Json :=
  fields.value? name <|> fields.value? other

def ofJson (v : Json) : Except Fault Step :=
  match v with
  | .obj fields =>
    match either fields "type" "kind" with
    | none => .error (.unreadableStep (.kindMissing v.text))
    | some (.str name) => do
      let kind := Text.raiseAscii (Text.trim name)
      if !Action.kinds.contains kind then throw (.unknownStep kind)
      let whole := (either fields "all" "appliesToWholeSet").any Json.truthy
      return ⟨← Action.ofParameters kind fields, whole⟩
    | some other => .error (.unknownStep other.text)
  | _ => .error (.unreadableStep (.notObject v.text))

end Step

end Verdict
