import Verdict.Proofs.Rule.Faults
import Verdict.Proofs.Rule.Redating

/-!
# Evaluations of comparisons of dates

A rule may be evaluated at any time, in any session and from a tree that keeps checks made of it
before.  A comparison of dates then only depends on the dates that its operands find.
-/

namespace Verdict

/-! ## What operators say about found values -/

def Check.boundOf (v : Option Json) (n : Nat) : Option Instant :=
  (datesOf v).2 n

namespace Operator

open Check

/-- What an operator says about two dates; it holds only of two that are there. -/
def ofDates (op : Operator) (daily : Bool) (i j : Option Instant) : Bool :=
  i.any fun i => j.any (op.compareInstants daily i)

/-- What an operator says about a date and two bounds; only the date has to be there. -/
def ofExtent (op : Operator) (daily : Bool) (i low high : Option Instant) : Bool :=
  i.any fun i => op.compareExtent daily i low high

def verdict (op : Operator) (daily : Bool) (u v : Option Json) : Bool :=
  if op.isTemporalExtent then op.ofExtent daily (instantOf u) (boundOf v 0) (boundOf v 1)
  else op.ofDates daily (instantOf u) (instantOf v)

theorem verdict_of_extent {op : Operator} (hop : op.isTemporalExtent = true) (daily : Bool)
    (u v : Option Json) :
    op.verdict daily u v = op.ofExtent daily (instantOf u) (boundOf v 0) (boundOf v 1) := by
  rw [verdict, hop, if_pos rfl]

theorem verdict_of_not_extent {op : Operator} (hop : op.isTemporalExtent = false) (daily : Bool)
    (u v : Option Json) : op.verdict daily u v = op.ofDates daily (instantOf u) (instantOf v) := by
  rw [verdict, hop, if_neg Bool.false_ne_true]

end Operator

namespace Check

variable (kind : Kind) {op : Operator} (env : Environment) (u v : Option Json)

theorem result_traceExtent_eq (hop : op.isTemporalExtent = true) :
    (traceExtent kind op env u v).result = op.verdict (kind == .date) u v := by
  rw [Operator.verdict_of_extent hop, traceExtent, Operator.ofExtent]
  cases instantOf u <;> rfl

theorem result_traceInstants_eq (hop : op.isTemporalExtent = false) :
    (traceInstants kind op env u v).result = op.verdict (kind == .date) u v := by
  rw [Operator.verdict_of_not_extent hop, traceInstants, Operator.ofDates]
  cases instantOf u <;> cases instantOf v <;> rfl

end Check

namespace Rule

variable {tongue : ScopeId → String} {r : Rule} {record : Json} {env : Environment}
  {as : Comparand} {left right : Option Operand} {u v : Option Json}

/-- Without operands a comparison holds; otherwise it comes to what its operator says. -/
theorem result_interpretComparison_eq {locale : String} {now : Instant} (op : Operator)
    (hkind : as.kind.isTemporal = true)
    (hu : Operand.findBound as.kind locale now record env left = .ok u)
    (hv : Operand.findBound as.kind locale now record env right = .ok v) :
    (interpretComparison locale now op as left right record env).map (·.result) =
      .ok (left.isNone && right.isNone || op.verdict (as.kind == .date) u v) := by
  rw [interpretComparison]
  cases hnone : left.isNone && right.isNone with
  | true => rfl
  | false =>
    have hresult : (if op.isTemporalExtent then Check.traceExtent as.kind op env u v
        else Check.traceInstants as.kind op env u v).result =
          op.verdict (as.kind == .date) u v := by
      split
      · rename_i hop
        exact Check.result_traceExtent_eq as.kind env u v hop
      · rename_i hop
        exact Check.result_traceInstants_eq as.kind env u v (Bool.not_eq_true _ ▸ hop)
    rw [hu, hv, Bool.false_or, ← hresult]
    cases as with
    | values => cases hkind
    | dates | times => rfl

/-! ## Evaluations -/

/-- An evaluation of a rule on a record in an environment. -/
structure Occasion (tongue : ScopeId → String) (r : Rule) (record : Json) (env : Environment) where
  /-- The rule with the checks that were made of its nodes before. -/
  tree : Rule
  warmed : Warmed tongue tree
  same : tree.bare id = r.bare id
  session : Session
  reached : session.Reached
  speaks : session.tongue = tongue
  now : Instant

namespace Occasion

/-- The evaluation of a rule that keeps no checks yet in an empty session. -/
def first (r : Rule) (hcold : ∀ n ∈ r.nodes, n.memo = none) (now : Instant) (record : Json)
    (env : Environment) : Occasion ({} : Session).tongue r record env :=
  ⟨r, .cold hcold, rfl, {}, Session.reached_empty, rfl, now⟩

def result (x : Occasion tongue r record env) : Except Fault Bool :=
  (x.tree.evaluate x.now record env x.session).1.1.map (·.result)

def Compiles (x : Occasion tongue r record env) : Prop :=
  ∃ c, (x.tree.compile false x.session).1.1 = .ok c

/-- What is evaluated compiles whatever it keeps, or not at all. -/
theorem compiles_iff (x : Occasion tongue r record env) : x.Compiles ↔ r.audit = .ok () := by
  obtain ⟨tree, hwarmed, hsame, s, hs, rfl, now⟩ := x
  rw [← audit_eq_of_bare id hsame]
  exact (compile_settles hs.sound hwarmed.keeps false).isOk_iff

theorem compiles_of_result {x : Occasion tongue r record env} {b : Bool} (h : x.result = .ok b) :
    x.Compiles := by
  rw [result, Rule.evaluate, Work.state_bind_apply] at h
  rcases hcompile : x.tree.compile false x.session with ⟨⟨f | c, t⟩, s⟩
  · rw [hcompile] at h
    cases h
  · exact ⟨c, by rw [hcompile]⟩

theorem result_eq (x : Occasion tongue r record env) (hx : x.Compiles) :
    x.result = (r.interpret tongue x.now record env).map (·.result) := by
  have haudit := (audit_eq_of_bare id x.same).trans (x.compiles_iff.mp hx)
  obtain ⟨-, hanswer, -⟩ := evaluate_ends haudit x.warmed.keeps ⟨x.now, record, env⟩ x.session
    x.reached.sound x.speaks
  rw [result, hanswer, interpret_eq_of_bare tongue x.now x.same]

/-- An evaluation comes to comparing two values: the rule compiles, all rules that it depends on
hold, and its operands find these. -/
structure Weighs (x : Occasion tongue r record env) (u v : Option Json) : Prop where
  compiles : x.Compiles
  found : ∃ e, Opens tongue x.now r record env e ∧
    Operand.findBound r.kind (tongue r.scope) x.now record e r.left = .ok u ∧
    Operand.findBound r.kind (tongue r.scope) x.now record e r.right = .ok v

theorem Weighs.result_eq {x : Occasion tongue r record env} (hx : x.Weighs u v)
    (hkind : as.kind.isTemporal = true) (htest : r.test = .compare as left right) :
    x.result = .ok (left.isNone && right.isNone ||
      r.operator.verdict (as.kind == .date) u v) := by
  obtain ⟨e, ⟨he, traces, htraces, hpassed⟩, hu, hv⟩ := hx.found
  rw [kind, htest, Test.kind_compare, Rule.left, htest] at hu
  rw [kind, htest, Test.kind_compare, Rule.right, htest] at hv
  rw [x.result_eq hx.compiles, result_interpret he, htraces]
  change (if traces.all (·.result) = true then _ else _) = _
  rw [if_pos hpassed, htest, interpretTest]
  exact result_interpretComparison_eq r.operator hkind hu hv

end Occasion

end Rule

end Verdict
