import Verdict.Proofs.Rule.Evaluation

/-!
# Rules that answer alike

What a rule says depends on its scopes only by the signs of their locales, and on the time only by
relative days.  So checks of trees that are equal but for descriptions answer alike wherever the
locales of their scopes do.
-/

namespace Verdict

/-- Outcomes of compiling that no answer tells apart: one fault, or checks that come to the same
on every record and in every environment, run at two such times in any sound sessions. -/
def Check.Alike (times : Instant → Instant → Prop) :
    Except Fault Check → Except Fault Check → Prop
  | .ok c, .ok d => ∀ now now', times now now' → ∀ record env, ∀ s t : Session, s.Sound → t.Sound →
    (c.run now record env s).1 = (d.run now' record env t).1
  | .error f, .error g => f = g
  | _, _ => False

namespace Rule

def readsNoDay (n : Rule) : Bool :=
  n.locals.all (·.2.isTimeless) && Operand.isTimelessBound n.left && Operand.isTimelessBound n.right

def isTimeless (r : Rule) : Bool :=
  r.nodes.all readsNoDay

theorem isTimeless_of_essence {a b : Rule} (h : a.essence = b.essence) :
    a.isTimeless = b.isTimeless := by
  have hnode : ∀ x : Rule, x.essence.readsNoDay = x.readsNoDay := by
    rintro ⟨test, op, dependencies, locals, description, scope, memo⟩
    simp only [readsNoDay, essence, bare, left, right, left_bareBelow, right_bareBelow]
  have hessence : ∀ r : Rule, r.essence.isTimeless = r.isTimeless := by
    intro r
    rw [isTimeless, essence, nodes_bare, List.all_map, isTimeless]
    exact congrArg r.nodes.all (funext hnode)
  rw [← hessence a, h, hessence]

/-! ## Locales and time -/

/-- A node finds the same seen from two sessions at two times. -/
structure Steady (tongue tongue' : ScopeId → String) (now now' : Instant) (n : Rule) : Prop where
  locale : Locale.resolve (tongue n.scope) = Locale.resolve (tongue' n.scope)
  time : n.readsNoDay = true ∨ now = now'

section Congruence

variable {tongue tongue' : ScopeId → String} {now now' : Instant}

theorem extend_congr {locale locale' : String} (kind : Kind) {locals : Members Operand}
    (hlocale : Locale.resolve locale = Locale.resolve locale')
    (htime : locals.all (·.2.isTimeless) = true ∨ now = now') (record : Json) (env : Environment) :
    extend kind locale now record env locals = extend kind locale' now' record env locals := by
  have hfound : (locals.mapM fun l =>
      return (l.1, (← l.2.find kind locale now record env).getD .null) :
        Except Fault (List (String × Json))) = locals.mapM fun l =>
      return (l.1, (← l.2.find kind locale' now' record env).getD .null) := by
    induction locals with
    | nil => rfl
    | cons l rest ih =>
      rw [List.all_cons, Bool.and_eq_true] at htime
      rw [List.mapM_cons, List.mapM_cons, ih (htime.imp_left And.right),
        Operand.find_congr hlocale l.2 (htime.imp_left And.left)]
  rw [extend, extend, hfound]

def SteadyTest (tongue tongue' : ScopeId → String) (now now' : Instant) (scope : ScopeId)
    (test : Test Rule) : Prop :=
  ∀ kind record env,
    Operand.findBound kind (tongue scope) now record env test.left =
        Operand.findBound kind (tongue' scope) now' record env test.left ∧
      Operand.findBound kind (tongue scope) now record env test.right =
        Operand.findBound kind (tongue' scope) now' record env test.right

theorem Steady.test {n : Rule} (h : Steady tongue tongue' now now' n) :
    SteadyTest tongue tongue' now now' n.scope n.test := by
  intro kind record env
  have htime := h.time
  rw [readsNoDay, Bool.and_eq_true, Bool.and_eq_true] at htime
  exact ⟨Operand.findBound_congr h.locale _ (htime.imp_left (·.1.2)),
    Operand.findBound_congr h.locale _ (htime.imp_left (·.2))⟩

theorem Steady.extend {n : Rule} (h : Steady tongue tongue' now now' n) (kind : Kind)
    (record : Json) (env : Environment) :
    Rule.extend kind (tongue n.scope) now record env n.locals =
      Rule.extend kind (tongue' n.scope) now' record env n.locals := by
  have htime := h.time
  rw [readsNoDay, Bool.and_eq_true, Bool.and_eq_true] at htime
  exact extend_congr kind h.locale (htime.imp_left (·.1.1)) record env

mutual
/-- A rule says the same seen from two sessions at two times if its nodes find the same. -/
theorem interpret_congr : (r : Rule) → (∀ n ∈ r.nodes, Steady tongue tongue' now now' n) →
    r.interpret tongue now = r.interpret tongue' now'
  | ⟨test, op, dependencies, locals, description, scope, memo⟩, h => by
    rw [nodes, List.forall_mem_cons, List.forall_mem_append] at h
    obtain ⟨hself, hbelow, hdepend⟩ := h
    funext record env
    rw [interpret, interpret, hself.extend, interpretAll_congr dependencies hdepend,
      interpretTest_congr op scope test hself.test hbelow]

theorem interpretTest_congr (op : Operator) (scope : ScopeId) : (test : Test Rule) →
    SteadyTest tongue tongue' now now' scope test →
    (∀ n ∈ nodesBelow test, Steady tongue tongue' now now' n) →
    interpretTest tongue now op scope test = interpretTest tongue' now' op scope test
  | .compare as left right, htest, _ => by
    simp only [SteadyTest, Test.left, Test.right] at htest
    funext record env
    rw [interpretTest, interpretTest, interpretComparison, interpretComparison,
      (htest as.kind record env).1, (htest as.kind record env).2]
  | .presence left, htest, _ => by
    simp only [SteadyTest, Test.left] at htest
    funext record env
    rw [interpretTest, interpretTest, (htest .presence record env).1]
  | .compound cs, _, hbelow => by
    funext record env
    rw [interpretTest, interpretTest, interpretAll_congr cs hbelow]
  | .iterate left cs, htest, hbelow => by
    simp only [SteadyTest, Test.left] at htest
    funext record env
    rw [interpretTest, interpretTest, (htest .iterate record env).1, interpretAll_congr cs hbelow]

theorem interpretAll_congr : (rs : List Rule) →
    (∀ n ∈ nodesAll rs, Steady tongue tongue' now now' n) →
    interpretAll tongue now rs = interpretAll tongue' now' rs
  | [], _ => rfl
  | r :: rest, h => by
    rw [nodesAll, List.forall_mem_append] at h
    funext record env
    rw [interpretAll, interpretAll, interpret_congr r h.1, interpretAll_congr rest h.2]
end

end Congruence

/-! ## Trees of one essence -/

/-- Numbers are written alike at all nodes of a tree. -/
def Uniform (tongue : ScopeId → String) (locale : String) (r : Rule) : Prop :=
  ∀ n ∈ r.nodes, Locale.resolve (tongue n.scope) = Locale.resolve locale

section Essence

variable {tongue tongue' : ScopeId → String} {locale : String} {a b : Rule}

theorem interpret_of_essence (h : a.essence = b.essence) (ha : a.Uniform tongue locale)
    (hb : b.Uniform tongue' locale) {now now' : Instant}
    (htime : a.isTimeless = true ∨ now = now') :
    a.interpret tongue now = b.interpret tongue' now' := by
  have hself : ∀ n ∈ a.nodes, Steady tongue (fun _ => locale) now now' n := fun n hn =>
    ⟨ha n hn, htime.imp_left fun h => List.all_eq_true.mp h n hn⟩
  have hother : ∀ n ∈ b.nodes, Steady (fun _ => locale) tongue' now' now' n := fun n hn =>
    ⟨(hb n hn).symm, .inr rfl⟩
  calc a.interpret tongue now
    _ = a.interpret (fun _ => locale) now' := interpret_congr a hself
    _ = a.essence.interpret (fun _ => locale) now' := by rw [essence, interpret_bare]; rfl
    _ = b.essence.interpret (fun _ => locale) now' := by rw [h]
    _ = b.interpret (fun _ => locale) now' := by rw [essence, interpret_bare]; rfl
    _ = b.interpret tongue' now' := interpret_congr b hother

theorem alike_of_settles {times : Instant → Instant → Prop} {x y : Except Fault Check}
    (hx : Work.Settles a.audit (Says tongue · a) x) (hy : Work.Settles b.audit (Says tongue' · b) y)
    (haudit : a.audit = b.audit)
    (hmeans : ∀ now now', times now now' → a.interpret tongue now = b.interpret tongue' now') :
    Check.Alike times x y := by
  cases x with
  | error f =>
    cases y with
    | error g => exact Except.error.inj (hx.symm.trans (haudit.trans hy))
    | ok d => cases hx.symm.trans (haudit.trans hy.1)
  | ok c =>
    cases y with
    | error g => cases hx.1.symm.trans (haudit.trans hy)
    | ok d =>
      intro now now' hnow record env s t hs ht
      obtain ⟨s', hc, -⟩ := hx.2 now record env s hs
      obtain ⟨t', hd, -⟩ := hy.2 now' record env t ht
      rw [hc, hd, hmeans now now' hnow]

end Essence

end Rule

end Verdict
