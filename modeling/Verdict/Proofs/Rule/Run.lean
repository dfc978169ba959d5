import Mathlib.Data.List.Forall2
import Verdict.Proofs.Rule.Meaning

/-!
# Running checks

A check says of every record and environment what a rule means.  That follows from its parts: the
values that its getters find and what the checks below it say.
-/

namespace Verdict

/-! ## Comparing through a cache -/

namespace Operator

variable {patterns : Cache Pattern}

theorem compareWith_value (hp : patterns.Sound Pattern.buildDelimited) (op : Operator)
    (a b : Json) (fresh : Nat) : (op.compareWith a b patterns fresh).1 = op.compare a b := by
  cases op with
  | matching =>
    have hvalue := Cache.fetch_value hp b.form fresh
    rw [compare, ← hvalue]
    change ((patterns.fetch Pattern.buildDelimited b.form fresh).1.map (·.value.accepts a)) = _
    cases (patterns.fetch Pattern.buildDelimited b.form fresh).1 <;> rfl
  | _ => rfl

theorem sound_compareWith (hp : patterns.Sound Pattern.buildDelimited) (op : Operator)
    (a b : Json) (fresh : Nat) :
    (op.compareWith a b patterns fresh).2.1.Sound Pattern.buildDelimited := by
  cases op with
  | matching => exact Cache.sound_fetch hp b.form fresh
  | _ => exact hp

end Operator

namespace Check

theorem compareValues_yields (op : Operator) (scope : ScopeId) (rightText : String) (a b : Json) :
    (compareValues op scope rightText a b).Yields
      ((op.compare a b).mapError (blamePattern rightText)) := by
  intro s hs
  let out := op.compareWith a b (s.scope scope).patterns s.fresh
  have hvalue := Operator.compareWith_value (hs scope).patterns op a b s.fresh
  have hkept := Operator.sound_compareWith (hs scope).patterns op a b s.fresh
  exact ⟨_, Prod.ext (congrArg (·.mapError (blamePattern rightText)) hvalue) rfl,
    Session.leads_setScope hs scope { s.scope scope with patterns := out.2.1 }
      ⟨(hs scope).paths, hkept⟩ rfl out.2.2⟩

theorem testValues_yields (op : Operator) (scope : ScopeId) (rightText : String)
    (left right : Option Json) :
    (testValues op scope rightText left right).Yields
      (Rule.testFound op rightText left right) := by
  rcases left with _ | a
  · exact Work.yields_pure false
  rcases right with _ | b
  · exact Work.yields_pure false
  simp only [testValues, Rule.testFound]
  split
  · exact Work.yields_pure false
  · exact compareValues_yields op scope rightText a b

theorem group_yields (kind : Kind) (op : Operator) (env : Environment) (traces : List Trace) :
    (group kind op env traces).Yields (Rule.conclude kind op env traces) :=
  (Work.yields_lift _).bind fun _ => Work.yields_pure _

end Check

namespace Rule

variable {tongue : ScopeId → String} {now : Instant} {record : Json} {env : Environment}

/-! ## What checks say -/

/-- A check comes to what a rule means, on every record and in every environment. -/
def Says (tongue : ScopeId → String) (c : Check) (r : Rule) : Prop :=
  ∀ now record env, (c.run now record env).Yields (r.interpret tongue now record env)

def SaysTest (tongue : ScopeId → String) (op : Operator) (scope : ScopeId) (main : Main)
    (test : Test Rule) : Prop :=
  ∀ now record env, (Check.runMain now test.kind op main record env).Yields
    (interpretTest tongue now op scope test record env)

def FindsAll (kind : Kind) (locale : String) (locals : Members Operand)
    (getters : List (String × Getter)) : Prop :=
  List.Forall₂ (fun l g => l.1 = g.1 ∧ l.2.Finds kind locale g.2) locals getters

theorem extend_eq {kind : Kind} {locale : String} {locals : Members Operand}
    {getters : List (String × Getter)} (h : FindsAll kind locale locals getters) :
    extend kind locale now record env locals = .ok (Check.bind now getters record env) := by
  have hfound : (locals.mapM fun l =>
      return (l.1, (← l.2.find kind locale now record env).getD .null) :
        Except Fault (List (String × Json))) =
      .ok (getters.map fun g => (g.1, (g.2.value now record env).getD .null)) := by
    induction h with
    | nil => rfl
    | @cons l g _ _ hlg _ ih =>
      obtain ⟨hname, hg⟩ := hlg
      rw [List.mapM_cons, ih, List.map_cons, ← hname]
      simp only [hg now record env]
      rfl
  rw [extend, hfound]
  cases h <;> rfl

theorem runAll_yields {checks : List Check} {rs : List Rule}
    (h : List.Forall₂ (Says tongue) checks rs) :
    (Check.runAll now checks record env).Yields (interpretAll tongue now rs record env) := by
  induction h with
  | nil => exact Work.yields_pure []
  | cons hcr _ ih =>
    rw [Check.runAll, interpretAll]
    exact (hcr now record env).bind fun trace => ih.bind fun traces => Work.yields_pure _

theorem says_mk {id : Nat} {test : Test Rule} {op : Operator} {dependencies : List Rule}
    {locals : Members Operand} {description : Option String} {scope : ScopeId} {memo : Option Memo}
    {getters : List (String × Getter)} {checks : List Check} {main : Main}
    (hlocals : FindsAll test.kind (tongue scope) locals getters)
    (hdependencies : List.Forall₂ (Says tongue) checks dependencies)
    (htest : SaysTest tongue op scope main test) :
    Says tongue ⟨id, test.kind, op, getters, checks, main⟩
      ⟨test, op, dependencies, locals, description, scope, memo⟩ := by
  intro now record env
  rw [Check.run, interpret, extend_eq hlocals]
  have hempty : checks.isEmpty = dependencies.isEmpty := by
    cases hdependencies <;> rfl
  simp only [hempty]
  split
  · exact htest now record _
  · refine (runAll_yields hdependencies).bind fun traces => ?_
    simp only [Check.gate]
    split
    · exact (htest now record _).bind fun trace => Work.yields_pure _
    · exact Work.yields_pure _

end Rule

end Verdict
