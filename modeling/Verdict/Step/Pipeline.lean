import Verdict.Calendar.Shift
import Verdict.Locale.Number
import Verdict.Path.Lookup
import Verdict.Scope
import Verdict.Step.Basic
import Verdict.Step.Measure
import Verdict.Text.Casing

/-!
# Pipelines

Steps made ready to run, and what they do to values. A list of values goes from step to step; a
missing value and null have no values to go.
-/

namespace Verdict

/-- What a step needs besides its parameters. -/
inductive Tool where
  | none
  | pattern (p : Pattern)
  | path (p : Path)

structure ReadyStep where
  step : Step
  tool : Tool

/-- Steps in order, with the kind of rule that they work for and the locale of its scope. -/
structure Pipeline where
  steps : List ReadyStep
  kind : Kind
  locale : String

namespace Action

/-! ## Lists of numbers -/

private def numberOrNull (x : Option Float) : Json :=
  match x with
  | some x => .ofFloat x
  | none => .null

def broadcast (f : Float → Option Float) (input : Json) : Json :=
  let apply := fun (v : Json) => numberOrNull (v.forcedNumber?.bind f)
  match input with
  | .arr items => .arr (items.map apply)
  | v => apply v

def numbers? (values : List Json) : Option (List Float) :=
  values.mapM Json.forcedNumber?

/-- Reduces the numbers of a list that may be nested. A single element counts as its number, and
what is no list stays as it is. -/
def aggregate (reduce : List Float → Json) (input : Json) : Json :=
  match input with
  | .arr [] => input
  | .arr [item] => numberOrNull item.forcedNumber?
  | .arr items =>
    match numbers? (Json.arr items).leaves with
    | some [] => .null
    | some xs => reduce xs
    | none => .null
  | _ => input

private def sumOf (xs : List Float) : Float :=
  xs.foldl (· + ·) 0

def minimum (xs : List Float) : Float :=
  xs.foldl (fun m x => if x < m then x else m) (1 / 0)

def maximum (xs : List Float) : Float :=
  xs.foldl (fun m x => if m < x then x else m) (-1 / 0)

/-! ## Single values -/

/-- Characters, elements or members; other values have none. -/
def sizeOf : Json → Nat
  | .str s => s.length
  | .arr items => items.length
  | .obj members => members.length
  | _ => 0

/-- Where a slice of a list of the given length begins and ends. Negative positions count from
the end, and positions beyond an end stand for that end. -/
def sliceBounds (length : Nat) (start stop : Option Int) : Nat × Nat :=
  let resolve := fun (i : Int) =>
    if i < 0 then length - i.natAbs else Nat.min i.toNat length
  let low := (start.map resolve).getD 0
  let high := (stop.map resolve).getD length
  (low, Nat.max high low)

private def sliceList {α : Type} (items : List α) (start stop : Option Int) : List α :=
  let (low, high) := sliceBounds items.length start stop
  (items.drop low).take (high - low)

def sliceOf (start stop : Option Int) : Json → Json
  | .arr items => .arr (sliceList items start stop)
  | v => .str (String.ofList (sliceList v.form.toList start stop))

/-- Digits with one point at most, up to the first other character. -/
private def numberPart (pointSeen : Bool) : List Char → List Char
  | [] => []
  | c :: cs =>
    if Decimal.isDigit c then c :: numberPart pointSeen cs
    else if c == '.' && !pointSeen then c :: numberPart true cs
    else []

/-- A number: null is zero; text that spells no number is read without its other characters. -/
def toNumber (v : Json) : Json :=
  if v.isNull then .ofInt 0
  else match v.number? with
    | some x => .ofFloat x
    | none =>
      let kept := v.form.toList.filter fun c => Decimal.isDigit c || c == '.'
      numberOrNull (Decimal.readFloat (numberPart false kept))

def toText (locale : String) (least most : Option Nat) : Json → Json
  | .str s => .str s
  | .num n =>
    let least := least.getD 0
    .str ((Locale.resolve locale).writeNumber n.toFloat least (most.getD (Nat.max 3 least)))
  | v => .str v.form

private def mapText (f : String → String) : Json → Json
  | .str s => .str (f s)
  | v => v

/-- A magnitude with an optional unit behind it, converted to another unit. -/
def measure (p : Pattern) (assume target : String) (v : Json) : Json :=
  match p.captures? (Text.toUpper (Text.trim v.form)) with
  | some (_ :: some magnitude :: name :: _) =>
    numberOrNull do
      let x ← Decimal.readFloat (magnitude.toList.filter (· != ','))
      let unit ← MeasureUnit.ofName? (Text.toLower (name.getD assume))
      MeasureUnit.convert? x unit (← MeasureUnit.ofName? (Text.toLower target))
  | _ => .null

/-- Moves a date, or adds to a number. Values of temporal rules are always dates. -/
def offset (kind : Kind) (amount : Json) (sign : Int) (input : Json) : Json :=
  if kind.isTemporal || input.isDateText then
    let shifted := do
      let i ← input.instant?
      let delta ← match amount with
        | .obj _ | .num _ => some amount
        | v => v.number?.map Json.ofFloat
      Calendar.shift i delta sign
    match shifted with
    | some i => .ofInstant i
    | none => .null
  else match input.number?, amount.number? with
    | some x, some d => .ofFloat (x + d * Float.ofInt sign)
    | _, _ => input

def apply (kind : Kind) (locale : String) (tool : Tool) (a : Action) (input : Json) : Json :=
  match a, tool with
  | add amount, _ => offset kind amount 1 input
  | subtract amount, _ => offset kind amount (-1) input
  | multiply factor, _ => broadcast (fun x => factor.forcedNumber?.map (x * ·)) input
  | divide divisor, _ =>
    let d := if divisor.truthy then divisor.forcedNumber? else some 0
    broadcast (fun x => d.map fun d => if d == 0 then 0 else x / d) input
  | sum, _ => aggregate (fun xs => .ofFloat (sumOf xs)) input
  | min, _ => aggregate (fun xs => .ofFloat (minimum xs)) input
  | max, _ => aggregate (fun xs => .ofFloat (maximum xs)) input
  | range, _ =>
    aggregate (fun xs => .arr [.ofFloat (minimum xs), .ofFloat (maximum xs)]) input
  | average, _ => aggregate (fun xs => .ofFloat (sumOf xs / Float.ofNat xs.length)) input
  | abs, _ => broadcast (fun x => some x.abs) input
  | length, _ => .ofInt (sizeOf input)
  | regexp _ replacement, .pattern p =>
    match replacement with
    | some r => .str (p.replaceFirst input.form r)
    | none => ((p.find? input.form).map Json.str).getD .null
  | get path, _ => (input.lookup path).getD .null
  | collect _, .path p => .arr (p.execute input)
  | split _, .pattern p => .arr ((p.split input.form).map .str)
  | slice start stop, _ => sliceOf (start.map Int64.toInt) (stop.map Int64.toInt) input
  | first, _ => match input with
    | .arr items => items.head?.getD .null
    | v => v
  | last, _ => match input with
    | .arr items => items.getLast?.getD .null
    | v => v
  | flatten, _ => .arr input.leaves
  | number, _ => toNumber input
  | text name least most, _ =>
    toText (name.getD locale) (least.map UInt64.toNat) (most.map UInt64.toNat) input
  | date format, _ =>
    match Calendar.readWith (Text.trim input.form) (format.getD "yyyy-LL-dd") with
    | some i => .ofInstant i
    | none => .null
  | lowercase, _ => mapText Text.toLower input
  | uppercase, _ => mapText Text.toUpper input
  | table entries, _ => (Members.value? input.form entries).getD .null
  | measurement assume target, .pattern p =>
    measure p (assume.getD "sqft") (target.getD "m") input
  | _, _ => .null

/-- The spelling of magnitudes: digits, perhaps in groups and with a fraction, and a unit. -/
def measurementPattern : String :=
  "^(-?\\d+(?:,\\d\x7b3\x7d)*(?:\\.\\d+)?)\\s*(\\w+)?$"

def prepare (scope : ScopeId) : Action → Work Tool
  | custom _ => throw (.malformed "CUSTOM" .customCode)
  | regexp pattern _ =>
    match pattern with
    | some p =>
      if p.isEmpty then throw (.unreadableStep .patternMissing)
      else do return .pattern (← Pattern.buildDelimited p)
    | none => throw (.unreadableStep .patternMissing)
  | split delimiter => do
    let spelling := match delimiter with
      | some d => Pattern.escape d
      | none => ",\\s*"
    return .pattern (← Pattern.build spelling)
  | measurement .. => do
    return .pattern (← Pattern.build measurementPattern)
  | collect path => do return .path (← Work.path scope path)
  | _ => return .none

end Action

namespace Pipeline

def prepareAll (scope : ScopeId) : List Step → Work (List ReadyStep)
  | [] => return []
  | s :: rest => do
    let tool ← s.action.prepare scope
    return ⟨s, tool⟩ :: (← prepareAll scope rest)

def compile (steps : List Step) (kind : Kind) (scope : ScopeId) : Work Pipeline := do
  let ready ← prepareAll scope steps
  return ⟨ready, kind, ← Work.locale scope⟩

def applyStep (kind : Kind) (locale : String) (r : ReadyStep) (values : List Json) :
    List Json :=
  let f := r.step.action.apply kind locale r.tool
  if r.step.whole then
    match f (.arr values) with
    | .arr items => items
    | v => [v]
  else values.map f

def apply (p : Pipeline) (value : Option Json) : List Json :=
  match value with
  | none | some .null => []
  | some (.arr items) => p.steps.foldl (fun vs r => applyStep p.kind p.locale r vs) items
  | some v => p.steps.foldl (fun vs r => applyStep p.kind p.locale r vs) [v]

def run (steps : List Step) (kind : Kind) (scope : ScopeId) (value : Option Json) :
    Work (List Json) := do
  return (← compile steps kind scope).apply value

end Pipeline

end Verdict
