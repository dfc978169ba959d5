import Verdict.Operand.Getter
import Verdict.Proofs.Session

/-!
# What operands mean

The values of an operand, found without getters and caches: every path and every pattern is read
anew.  Making an operand ready finds the fault that reading it finds, and the getter that comes
of it finds the same values.
-/

namespace Verdict

/-! ## Steps -/

namespace Action

def tool : Action → Except Fault Tool
  | custom _ => .error (.malformed "CUSTOM" .customCode)
  | regexp pattern _ =>
    match pattern with
    | some p =>
      if p.isEmpty then .error (.unreadableStep .patternMissing)
      else (Pattern.buildDelimited p).map .pattern
    | none => .error (.unreadableStep .patternMissing)
  | split delimiter =>
    match delimiter with
    | some d => (Pattern.build (Pattern.escape d)).map .pattern
    | none => (Pattern.build ",\\s*").map .pattern
  | measurement .. => (Pattern.build measurementPattern).map .pattern
  | collect path => (Path.compile path).map .path
  | _ => .ok .none

theorem prepare_yields (scope : ScopeId) (a : Action) : (a.prepare scope).Yields a.tool := by
  cases a with
  | custom code => exact Work.yields_throw _
  | regexp pattern replacement =>
    cases pattern with
    | none => exact Work.yields_throw _
    | some p =>
      simp only [prepare, tool]
      split
      · exact Work.yields_throw _
      · exact (Work.yields_lift _).map _
  | split delimiter =>
    cases delimiter with
    | none => exact (Work.yields_lift _).map _
    | some d => exact (Work.yields_lift _).map _
  | measurement assume target => exact (Work.yields_lift _).map _
  | collect path => exact (Work.path_yields scope path).map _
  | _ => exact Work.yields_pure _

/-- Names of one locale are as good as each other. -/
theorem apply_congr {locale locale' : String}
    (h : Locale.resolve locale = Locale.resolve locale') (kind : Kind) (tool : Tool) (a : Action) :
    a.apply kind locale tool = a.apply kind locale' tool := by
  funext input
  cases a with
  | text name least most =>
    cases name with
    | none =>
      cases input with
      | num n => simp only [apply, toText, Option.getD_none, h]
      | _ => rfl
    | some name => rfl
  | _ => cases tool <;> rfl

end Action

def Step.ready (s : Step) : Except Fault ReadyStep :=
  s.action.tool.map (⟨s, ·⟩)

namespace Pipeline

def audit (steps : List Step) : Except Fault Unit :=
  (steps.mapM Step.ready).map fun _ => ()

theorem prepareAll_yields (scope : ScopeId) (steps : List Step) :
    (prepareAll scope steps).Yields (steps.mapM Step.ready) := by
  induction steps with
  | nil => exact Work.yields_pure []
  | cons s rest ih =>
    rw [List.mapM_cons, Step.ready]
    have hrest : ∀ tool : Tool, (do return ⟨s, tool⟩ :: (← prepareAll scope rest)
        : Work (List ReadyStep)).Yields ((rest.mapM Step.ready).map (⟨s, tool⟩ :: ·)) :=
      fun tool => ih.map (⟨s, tool⟩ :: ·)
    have h := (Action.prepare_yields scope s.action).bind hrest
    cases htool : s.action.tool <;> rw [htool] at h <;> exact h

theorem compile_makes (tongue : ScopeId → String) (steps : List Step) (kind : Kind)
    (scope : ScopeId) :
    Work.Makes tongue (compile steps kind scope) (audit steps) fun p =>
      ∃ ready, steps.mapM Step.ready = .ok ready ∧ p = ⟨ready, kind, tongue scope⟩ := by
  refine (prepareAll_yields scope steps).makes.bind_ok fun ready hready => ?_
  exact (Work.locale_makes scope).map fun locale hlocale => ⟨ready, hready, by rw [hlocale]⟩

theorem apply_congr {locale locale' : String} (h : Locale.resolve locale = Locale.resolve locale')
    (kind : Kind) (steps : List ReadyStep) :
    apply ⟨steps, kind, locale⟩ = apply ⟨steps, kind, locale'⟩ := by
  have hstep : applyStep kind locale = applyStep kind locale' := by
    funext r values
    rw [applyStep, applyStep, Action.apply_congr h]
  funext v
  simp only [apply, hstep]

end Pipeline

/-! ## Operands -/

namespace Operand

def blaming (o : Operand) (f : Fault) : Fault :=
  match f with
  | .unresolved .. => f
  | _ => if f.isStructural then f else .unresolved o.toJson.text f

mutual
def audit : Operand → Except Fault Unit
  | ⟨origin, steps⟩ =>
    (do auditOrigin origin; Pipeline.audit steps).mapError (blaming ⟨origin, steps⟩)

def auditOrigin : Origin → Except Fault Unit
  | .path text _ => (Path.compile text).map fun _ => ()
  | .range inner => audit inner
  | .between low high => do auditBound low; auditBound high
  | .record | .literal _ | .day _ | .env _ => .ok ()

def auditBound : Option Operand → Except Fault Unit
  | none => .ok ()
  | some o => audit o
end

mutual
/-- The value of an operand of a rule of some kind, in a scope with some locale. -/
def find (kind : Kind) (locale : String) (now : Instant) (record : Json) (env : Environment) :
    Operand → Except Fault (Option Json)
  | ⟨origin, steps⟩ => do
    let v ← findOrigin kind locale now record env origin
    if steps.isEmpty then return v
    let values := Pipeline.apply ⟨← steps.mapM Step.ready, kind, locale⟩ v
    return if isPlural ⟨origin, steps⟩ then some (.arr values) else values.head?

def findOrigin (kind : Kind) (locale : String) (now : Instant) (record : Json)
    (env : Environment) : Origin → Except Fault (Option Json)
  | .record => return some record
  | .literal v => return some v
  | .path text every => do
    let p ← Path.compile text
    return if every then some (.arr (p.execute record)) else p.first? record
  | .day d => return some (.ofInstant (d.resolve now))
  | .env name => return env.value? name
  | .range inner => do
    return some (Getter.bounds (← find kind locale now record env inner))
  | .between low high => do
    let low ← findBound kind locale now record env low
    let high ← findBound kind locale now record env high
    return some (.arr [low.getD .null, high.getD .null])

def findBound (kind : Kind) (locale : String) (now : Instant) (record : Json)
    (env : Environment) : Option Operand → Except Fault (Option Json)
  | none => return none
  | some o => find kind locale now record env o
end

/-- A getter finds what the operand means in a scope with some locale. -/
def Finds (kind : Kind) (locale : String) (o : Operand) (g : Getter) : Prop :=
  ∀ now record env, o.find kind locale now record env = .ok (g.value now record env)

variable {α : Type} {tongue : ScopeId → String}

theorem blame_makes {w : Work α} {check : Except Fault Unit} {Good : α → Prop} (o : Operand)
    (hw : Work.Makes tongue w check Good) :
    Work.Makes tongue (o.blame w) (check.mapError o.blaming) Good := by
  intro s hs ht
  obtain ⟨hst, hres⟩ := hw s hs ht
  rw [blame]
  rcases hrun : w s with ⟨f | a, t⟩ <;> rw [hrun] at hst hres
  · have hcheck : check.mapError o.blaming = .error (o.blaming f) := by
      rw [show check = .error f from hres]
      rfl
    cases f <;> exact ⟨hst, hcheck⟩
  · obtain ⟨rfl, ha⟩ := hres
    exact ⟨hst, rfl, ha⟩

mutual
/-- Making an operand ready fails exactly if its audit does, and else yields a getter for it. -/
theorem compile_makes (kind : Kind) (scope : ScopeId) : (o : Operand) →
    Work.Makes tongue (o.compile kind scope) o.audit (o.Finds kind (tongue scope))
  | ⟨origin, steps⟩ => by
    rw [compile, audit]
    apply blame_makes
    refine (compileOrigin_makes kind scope origin).bind fun g hg => ?_
    cases steps with
    | nil =>
      refine Work.makes_pure fun now record env => ?_
      rw [find, hg]
      rfl
    | cons s rest =>
      refine (Pipeline.compile_makes tongue (s :: rest) kind scope).map fun p hp => ?_
      obtain ⟨ready, hready, rfl⟩ := hp
      intro now record env
      rw [find, hg, hready, Getter.value]
      rfl

theorem compileOrigin_makes (kind : Kind) (scope : ScopeId) : (o : Origin) →
    Work.Makes tongue (compileOrigin kind scope o) (auditOrigin o) fun g =>
      ∀ now record env, findOrigin kind (tongue scope) now record env o =
        .ok (g.value now record env)
  | .record | .literal _ | .day _ | .env _ => by
    exact Work.makes_pure fun _ _ _ => rfl
  | .path text every => by
    rw [compileOrigin, auditOrigin]
    refine (Work.path_yields scope text).makes.map fun p hp now record env => ?_
    rw [findOrigin, hp]
    cases every <;> rfl
  | .range inner => by
    rw [compileOrigin, auditOrigin]
    refine (compile_makes kind scope inner).map fun g hg now record env => ?_
    rw [findOrigin, hg]
    rfl
  | .between low high => by
    rw [compileOrigin, auditOrigin]
    refine (compileBound_makes kind scope low).bind fun l hl => ?_
    refine (compileBound_makes kind scope high).map fun h hh now record env => ?_
    rw [findOrigin, hl, hh]
    rfl

theorem compileBound_makes (kind : Kind) (scope : ScopeId) : (o : Option Operand) →
    Work.Makes tongue (compileBound kind scope o) (auditBound o) fun g =>
      ∀ now record env, findBound kind (tongue scope) now record env o =
        .ok (g.value now record env)
  | none => Work.makes_pure fun _ _ _ => rfl
  | some o => compile_makes kind scope o
end

/-! ## Locales and time -/

mutual
/-- No day beside the current one is read. -/
def isTimeless : Operand → Bool
  | ⟨origin, _⟩ => isTimelessOrigin origin

def isTimelessOrigin : Origin → Bool
  | .day _ => false
  | .range inner => isTimeless inner
  | .between low high => isTimelessBound low && isTimelessBound high
  | .record | .literal _ | .path _ _ | .env _ => true

def isTimelessBound : Option Operand → Bool
  | none => true
  | some o => isTimeless o
end

section Congruence

variable {kind : Kind} {locale locale' : String} {now now' : Instant} {record : Json}
  {env : Environment}

mutual
/-- Of the locale only the signs matter, and of the time only what relative days make of it. -/
theorem find_congr (hlocale : Locale.resolve locale = Locale.resolve locale') :
    (o : Operand) → (o.isTimeless = true ∨ now = now') →
      find kind locale now record env o = find kind locale' now' record env o
  | ⟨origin, steps⟩, h => by
    rw [find, find, findOrigin_congr hlocale origin h]
    simp only [Pipeline.apply_congr hlocale]

theorem findOrigin_congr (hlocale : Locale.resolve locale = Locale.resolve locale') :
    (o : Origin) → (isTimelessOrigin o = true ∨ now = now') →
      findOrigin kind locale now record env o = findOrigin kind locale' now' record env o
  | .record, _ | .literal _, _ | .path _ _, _ | .env _, _ => rfl
  | .day d, h => by
    rcases h with h | rfl
    · cases h
    · rfl
  | .range inner, h => by
    rw [findOrigin, findOrigin, find_congr hlocale inner h]
  | .between low high, h => by
    rw [isTimelessOrigin, Bool.and_eq_true] at h
    rw [findOrigin, findOrigin, findBound_congr hlocale low (h.imp_left And.left),
      findBound_congr hlocale high (h.imp_left And.right)]

theorem findBound_congr (hlocale : Locale.resolve locale = Locale.resolve locale') :
    (o : Option Operand) → (isTimelessBound o = true ∨ now = now') →
      findBound kind locale now record env o = findBound kind locale' now' record env o
  | none, _ => rfl
  | some o, h => find_congr hlocale o h
end

end Congruence

end Operand

end Verdict
