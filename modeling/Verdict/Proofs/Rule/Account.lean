import Verdict.Proofs.Rule.Reliance
import Verdict.Proofs.Rule.Usable

/-!
# Traces account for results

A trace shows why a rule holds or does not.  Whoever has the rule and the record can check every
result in the trace, from the traces below it and the values that the operands find in the record
and in the environment of the trace.
-/

namespace Verdict

namespace Trace

def IsTyped (t : Trace) (kind : Kind) (op : Operator) : Prop :=
  t.kind = some kind ∧ t.operator = some op

/-- The trace holds and shows nothing that was tested. -/
structure HoldsUntested (t : Trace) : Prop where
  result : t.result = true
  left : t.left = none
  right : t.right = none
  results : t.results = none
  targets : t.targets = none

/-- The traces of dependencies are shown if there are any, and whether all of them hold. -/
structure ShowsDependencies (t : Trace) (traces : List Trace) : Prop where
  traces : t.dependencyTraces = Rule.someUnlessEmpty traces
  holds : t.dependencies = t.dependencyTraces.map fun ts => ts.all (·.result)

structure AccountsGroup (t : Trace) (kind : Kind) (op : Operator) (members : List Trace) :
    Prop where
  typed : t.IsTyped kind op
  results : t.results = some members
  result : op.combine (members.map (·.result)) = .ok t.result

structure AccountsElement (t : Trace) (members : List Trace) : Prop where
  typed : t.IsTyped .iterate .all
  dependencies : t.ShowsDependencies []
  results : t.results = some members
  result : t.result = members.all (·.result)

/-- An operand finds a value in the record and in the environment that the trace shows. -/
def Finds (t : Trace) (now : Instant) (record : Json) (kind : Kind) (locale : String)
    (o : Option Operand) (v : Option Json) : Prop :=
  ∃ env, t.environment = some env ∧ Operand.findBound kind locale now record env o = .ok v

structure AccountsValues (t : Trace) (op : Operator) : Prop where
  typed : t.IsTyped .primitive op
  result : t.result = true ↔ ∃ a b, t.left = some a ∧ t.right = some b ∧ a.isNull = false ∧
    b.isNull = false ∧ op.compare a b = .ok true

/-- A date is shown in one spelling, whatever its spelling was. -/
structure AccountsInstants (t : Trace) (kind : Kind) (op : Operator) (a b : Option Json) :
    Prop where
  typed : t.IsTyped kind op
  left : t.left = Check.dated a
  right : t.right = Check.dated b
  result : t.result = true ↔ ∃ i j, Check.instantOf a = some i ∧ Check.instantOf b = some j ∧
    op.compareInstants (kind == .date) i j = true

def boundOf (bounds : Option Json) (i : Nat) : Option Instant :=
  (bounds.getD .null).elements[i]?.bind Json.instant?

/-- Bounds that are no dates bound nothing and are shown as null. -/
structure AccountsExtent (t : Trace) (kind : Kind) (op : Operator) (a bounds : Option Json) :
    Prop where
  typed : t.IsTyped kind op
  left : t.left = Check.dated a
  right : t.right = (Check.instantOf a).map fun _ =>
    .arr [((boundOf bounds 0).map Json.ofInstant).getD .null,
      ((boundOf bounds 1).map Json.ofInstant).getD .null]
  result : t.result = true ↔ ∃ i, Check.instantOf a = some i ∧
    op.compareExtent (kind == .date) i (boundOf bounds 0) (boundOf bounds 1) = true

/-- A value is there, or the operator asks for it not to be there, but not both. -/
structure AccountsPresence (t : Trace) (op : Operator) : Prop where
  typed : t.IsTyped .presence op
  result : t.result = true ↔ (Json.isAbsent t.left = true ↔ op = .isFalse)

/-- Without operands there is nothing to test and no type. -/
def AccountsComparison (t : Trace) (now : Instant) (record : Json) (op : Operator)
    (as : Comparand) (left right : Option Operand) : Prop :=
  if left.isNone && right.isNone then t.kind = none ∧ t.operator = none ∧ t.HoldsUntested
  else ∃ locale a b, t.Finds now record as.kind locale left a ∧
    t.Finds now record as.kind locale right b ∧ match as with
      | .values => t.left = a ∧ t.right = b ∧ t.AccountsValues op
      | .dates | .times =>
        if op.isTemporalExtent then t.AccountsExtent as.kind op a b
        else t.AccountsInstants as.kind op a b

/-! ## Dependencies beside a test -/

/-- The trace with what is shown of dependencies. -/
def gated (t : Trace) (holds : Option Bool) (traces : Option (List Trace)) : Trace :=
  { t with dependencies := holds, dependencyTraces := traces }

section Gated

variable {t : Trace} {kind : Kind} {op : Operator} {holds : Option Bool}
  {traces : Option (List Trace)}

theorem HoldsUntested.gated (h : t.HoldsUntested) : (t.gated holds traces).HoldsUntested :=
  ⟨h.result, h.left, h.right, h.results, h.targets⟩

theorem AccountsGroup.gated {members : List Trace} (h : t.AccountsGroup kind op members) :
    (t.gated holds traces).AccountsGroup kind op members :=
  ⟨h.typed, h.results, h.result⟩

theorem AccountsPresence.gated (h : t.AccountsPresence op) :
    (t.gated holds traces).AccountsPresence op :=
  ⟨h.typed, h.result⟩

theorem AccountsValues.gated (h : t.AccountsValues op) : (t.gated holds traces).AccountsValues op :=
  ⟨h.typed, h.result⟩

theorem AccountsInstants.gated {a b : Option Json} (h : t.AccountsInstants kind op a b) :
    (t.gated holds traces).AccountsInstants kind op a b :=
  ⟨h.typed, h.left, h.right, h.result⟩

theorem AccountsExtent.gated {a bounds : Option Json} (h : t.AccountsExtent kind op a bounds) :
    (t.gated holds traces).AccountsExtent kind op a bounds :=
  ⟨h.typed, h.left, h.right, h.result⟩

variable {now : Instant} {record : Json}

theorem AccountsComparison.gated {as : Comparand} {left right : Option Operand}
    (h : t.AccountsComparison now record op as left right) :
    (t.gated holds traces).AccountsComparison now record op as left right := by
  unfold AccountsComparison at h ⊢
  split at h
  · rename_i hnone
    rw [if_pos hnone]
    exact ⟨h.1, h.2.1, h.2.2.gated⟩
  · rename_i hsome
    rw [if_neg hsome]
    obtain ⟨locale, a, b, ha, hb, h⟩ := h
    refine ⟨locale, a, b, ha, hb, ?_⟩
    cases as with
    | values => exact ⟨h.1, h.2.1, h.2.2.gated⟩
    | dates | times =>
      dsimp only at h ⊢
      split at h
      · rename_i hextent
        rw [if_pos hextent]
        exact h.gated
      · rename_i hextent
        rw [if_neg hextent]
        exact h.gated

end Gated

/-- Nothing is shown of dependencies. -/
structure Ungated (t : Trace) : Prop where
  traces : t.dependencyTraces = none
  holds : t.dependencies = none

theorem Ungated.shows {t : Trace} (h : t.Ungated) : t.ShowsDependencies [] where
  traces := h.traces
  holds := by rw [h.holds, h.traces]; rfl

end Trace

namespace Rule

/-! ## Accounts -/

variable (now : Instant)

mutual
/-- The trace of a rule about a record and all traces in it account for their results. -/
def Accounts : Rule → Json → Trace → Prop
  | ⟨test, op, dependencies, _, _, _, _⟩, record, t =>
    (∃ traces, AccountsAll dependencies record traces ∧ t.ShowsDependencies traces) ∧
      if t.dependencies = some false then t.IsTyped test.kind op ∧ t.HoldsUntested
      else AccountsTest op test record t

def AccountsTest (op : Operator) : Test Rule → Json → Trace → Prop
  | .compare as left right, record, t => t.AccountsComparison now record op as left right
  | .presence left, record, t =>
    if left.isNone then t.kind = none ∧ t.operator = none ∧ t.HoldsUntested
    else (∃ locale, t.Finds now record .presence locale left t.left) ∧ t.AccountsPresence op
  | .compound cs, record, t =>
    ∃ traces, AccountsAll cs record traces ∧ t.AccountsGroup .compound op traces
  | .iterate left cs, record, t => ∃ elements targets, t.targets = some targets ∧
    (∃ locale v, t.Finds now record .iterate locale left v ∧
      targets = (v.getD .null).elements) ∧
    List.Forall₂ (fun target element => ∃ traces, AccountsAll cs target traces ∧
      element.AccountsElement traces) targets elements ∧
    t.AccountsGroup .iterate op elements

def AccountsAll : List Rule → Json → List Trace → Prop
  | [], _, ts => ts = []
  | r :: rest, record, ts =>
    ∃ t more, ts = t :: more ∧ Accounts r record t ∧ AccountsAll rest record more
end

variable {now : Instant} {record : Json}

theorem AccountsAll.shown {rs : List Rule} {ts : List Trace} (h : AccountsAll now rs record ts)
    (hrs : rs.isEmpty = false) : some ts = someUnlessEmpty ts := by
  cases rs with
  | nil => cases hrs
  | cons r rest =>
    obtain ⟨t, more, rfl, -⟩ := h
    rfl

section Bare

variable (now : Instant) (move : ScopeId → ScopeId)

mutual
theorem accounts_bare : (r : Rule) → (r.bare move).Accounts now = r.Accounts now
  | ⟨test, op, dependencies, locals, description, scope, memo⟩ => by
    funext record t
    rw [bare, Accounts, Accounts, accountsAll_bare, accountsTest_bare, kind_bareBelow]

theorem accountsTest_bare (op : Operator) : (test : Test Rule) →
    AccountsTest now op (bareBelow move test) = AccountsTest now op test
  | .compare .. => rfl
  | .presence _ => rfl
  | .compound cs => by
    funext record t
    rw [bareBelow, AccountsTest, AccountsTest, accountsAll_bare]
  | .iterate left cs => by
    funext record t
    rw [bareBelow, AccountsTest, AccountsTest, accountsAll_bare]

theorem accountsAll_bare : (rs : List Rule) → AccountsAll now (bareAll move rs) = AccountsAll now rs
  | [] => rfl
  | r :: rest => by
    funext record ts
    rw [bareAll, AccountsAll, AccountsAll, accounts_bare r, accountsAll_bare rest]
end

end Bare

/-! ## Traces of the interpreter -/

variable {tongue : ScopeId → String} {env : Environment} {op : Operator} {t : Trace}

theorem testFound_eq_true_iff {text : String} {left right : Option Json} {b : Bool}
    (h : testFound op text left right = .ok b) :
    b = true ↔ ∃ x y, left = some x ∧ right = some y ∧ x.isNull = false ∧ y.isNull = false ∧
      op.compare x y = .ok true := by
  rcases left with _ | x
  · cases h
    exact ⟨nofun, nofun⟩
  rcases right with _ | y
  · cases h
    exact ⟨nofun, nofun⟩
  simp only [Option.some.injEq, exists_eq_left', exists_and_left]
  rw [testFound] at h
  split at h
  · rename_i hnull
    cases h
    refine iff_of_false Bool.false_ne_true fun h => ?_
    rw [h.1, h.2.1] at hnull
    exact Bool.false_ne_true hnull
  · rename_i hnull
    rw [Bool.or_eq_true, not_or, Bool.not_eq_true, Bool.not_eq_true] at hnull
    have hcompare : op.compare x y = .ok b := (mapError_eq_ok_iff _ b).mp h
    rw [hcompare]
    exact ⟨fun hb => ⟨hnull.1, hnull.2, congrArg _ hb⟩, fun h => Except.ok.inj h.2.2⟩

theorem accountsInstants (kind : Kind) (a b : Option Json) :
    (Check.traceInstants kind op env a b).AccountsInstants kind op a b := by
  refine ⟨⟨rfl, rfl⟩, rfl, rfl, ?_⟩
  simp only [Check.traceInstants, Trace.of]
  cases Check.instantOf a <;> cases Check.instantOf b <;> simp

theorem environment_traceExtent (kind : Kind) (a bounds : Option Json) :
    (Check.traceExtent kind op env a bounds).environment = some env := by
  rw [Check.traceExtent]
  cases Check.instantOf a <;> rfl

theorem accountsExtent (kind : Kind) (a bounds : Option Json) :
    (Check.traceExtent kind op env a bounds).AccountsExtent kind op a bounds := by
  cases ha : Check.instantOf a with
  | none =>
    simp only [Check.traceExtent, ha]
    exact ⟨⟨rfl, rfl⟩, by simp only [Check.dated, ha], by rw [ha]; rfl, by simp [ha, Trace.of]⟩
  | some i =>
    simp only [Check.traceExtent, ha]
    refine ⟨⟨rfl, rfl⟩, by simp only [Check.dated, ha], by rw [ha]; rfl, ?_⟩
    simp [ha, Trace.of, Trace.boundOf]

theorem interpretComparison_eq_ok {locale : String} {as : Comparand} {left right : Option Operand}
    (h : interpretComparison locale now op as left right record env = .ok t) :
    (left.isNone && right.isNone) = true ∧ t = Trace.pass ∨
      (left.isNone && right.isNone) = false ∧ t.environment = some env ∧
        ∃ a b, Operand.findBound as.kind locale now record env left = .ok a ∧
          Operand.findBound as.kind locale now record env right = .ok b ∧ match as with
          | .values => ∃ result, testFound op (rightText right) a b = .ok result ∧
            t = { Trace.of .primitive op env result with left := a, right := b }
          | .dates | .times => t = if op.isTemporalExtent then Check.traceExtent as.kind op env a b
            else Check.traceInstants as.kind op env a b := by
  rw [interpretComparison] at h
  split at h
  · rename_i hnone
    exact .inl ⟨hnone, (Except.ok.inj h).symm⟩
  · rename_i hsome
    obtain ⟨a, ha, h⟩ := bind_eq_ok h
    obtain ⟨b, hb, h⟩ := bind_eq_ok h
    refine .inr ⟨Bool.eq_false_of_not_eq_true hsome, ?_⟩
    cases as with
    | values =>
      obtain ⟨result, hresult, h⟩ := bind_eq_ok h
      cases h
      exact ⟨rfl, a, b, ha, hb, result, hresult, rfl⟩
    | dates | times =>
      cases h
      refine ⟨?_, a, b, ha, hb, rfl⟩
      cases op.isTemporalExtent
      · rfl
      · exact environment_traceExtent _ a b

theorem accountsComparison {locale : String} {as : Comparand} {left right : Option Operand}
    (h : interpretComparison locale now op as left right record env = .ok t) :
    t.AccountsComparison now record op as left right := by
  unfold Trace.AccountsComparison
  obtain ⟨hnone, rfl⟩ | ⟨hsome, henv, a, b, ha, hb, h⟩ := interpretComparison_eq_ok h
  · rw [if_pos hnone]
    exact ⟨rfl, rfl, rfl, rfl, rfl, rfl, rfl⟩
  · rw [hsome, if_neg Bool.false_ne_true]
    refine ⟨locale, a, b, ⟨env, henv, ha⟩, ⟨env, henv, hb⟩, ?_⟩
    cases as with
    | values =>
      obtain ⟨result, hresult, rfl⟩ := h
      exact ⟨rfl, rfl, ⟨rfl, rfl⟩, testFound_eq_true_iff hresult⟩
    | dates | times =>
      rw [h]
      cases op.isTemporalExtent
      · exact accountsInstants _ a b
      · exact accountsExtent _ a b

theorem testPresence_eq_true_iff (v : Option Json) :
    Check.testPresence op v = true ↔ (Json.isAbsent v = true ↔ op = .isFalse) := by
  rw [Check.testPresence]
  by_cases hop : op = .isFalse <;> simp [hop]

theorem accountsGroup {kind : Kind} {traces : List Trace}
    (h : conclude kind op env traces = .ok t) : t.AccountsGroup kind op traces := by
  obtain ⟨result, hresult, h⟩ := bind_eq_ok h
  cases h
  exact ⟨⟨rfl, rfl⟩, rfl, hresult⟩

theorem ungated_of_interpretComparison {locale : String} {as : Comparand}
    {left right : Option Operand}
    (h : interpretComparison locale now op as left right record env = .ok t) : t.Ungated := by
  obtain ⟨-, rfl⟩ | ⟨-, -, a, b, -, -, h⟩ := interpretComparison_eq_ok h
  · exact ⟨rfl, rfl⟩
  · cases as with
    | values =>
      obtain ⟨result, -, rfl⟩ := h
      exact ⟨rfl, rfl⟩
    | dates | times =>
      rw [h]
      cases op.isTemporalExtent
      · exact ⟨rfl, rfl⟩
      · rw [if_pos rfl, Check.traceExtent]
        cases Check.instantOf a <;> exact ⟨rfl, rfl⟩

theorem ungated_of_conclude {kind : Kind} {traces : List Trace}
    (h : conclude kind op env traces = .ok t) : t.Ungated := by
  obtain ⟨result, -, h⟩ := bind_eq_ok h
  cases h
  exact ⟨rfl, rfl⟩

theorem ungated_of_interpretTest {scope : ScopeId} {test : Test Rule}
    (h : interpretTest tongue now op scope test record env = .ok t) : t.Ungated := by
  cases test with
  | compare as left right => exact ungated_of_interpretComparison h
  | presence left =>
    rw [interpretTest] at h
    split at h
    · cases h
      exact ⟨rfl, rfl⟩
    · obtain ⟨v, -, h⟩ := bind_eq_ok h
      cases h
      exact ⟨rfl, rfl⟩
  | compound cs =>
    rw [interpretTest] at h
    obtain ⟨traces, -, h⟩ := bind_eq_ok h
    exact ungated_of_conclude h
  | iterate left cs =>
    rw [interpretTest] at h
    obtain ⟨v, -, h⟩ := bind_eq_ok h
    obtain ⟨elements, -, h⟩ := bind_eq_ok h
    obtain ⟨group, hgroup, h⟩ := bind_eq_ok h
    cases h
    exact ⟨(ungated_of_conclude hgroup).traces, (ungated_of_conclude hgroup).holds⟩

/-- What accounts for a test does so whatever is shown of dependencies. -/
theorem accountsTest_gated {test : Test Rule} (h : AccountsTest now op test record t)
    (holds : Option Bool) (traces : Option (List Trace)) :
    AccountsTest now op test record (t.gated holds traces) := by
  cases test with
  | compare as left right => exact Trace.AccountsComparison.gated h
  | presence left =>
    cases left with
    | none => exact ⟨h.1, h.2.1, h.2.2.gated⟩
    | some o => exact ⟨h.1, h.2.gated⟩
  | compound cs =>
    obtain ⟨ts, hall, hgroup⟩ := h
    exact ⟨ts, hall, hgroup.gated⟩
  | iterate left cs =>
    obtain ⟨ts, targets, htargets, hfound, helements, hgroup⟩ := h
    exact ⟨ts, targets, htargets, hfound, helements, hgroup.gated⟩

mutual
theorem accounts_of_interpret : (r : Rule) → ∀ {record : Json} {env : Environment} {t : Trace},
    r.interpret tongue now record env = .ok t → r.Accounts now record t
  | ⟨test, op, dependencies, locals, description, scope, memo⟩, record, env, t, h => by
    rw [Accounts]
    cases hempty : dependencies.isEmpty with
    | true =>
      cases List.isEmpty_iff.mp hempty
      rw [interpret_ungated rfl] at h
      obtain ⟨e, -, htest⟩ := bind_eq_ok h
      have hshows := (ungated_of_interpretTest htest).shows
      refine ⟨⟨[], rfl, hshows⟩, ?_⟩
      rw [if_neg (by rw [hshows.holds, hshows.traces]; exact nofun)]
      exact accountsTest_of_interpret test htest
    | false =>
      rw [interpret_gated hempty] at h
      obtain ⟨e, -, h⟩ := bind_eq_ok h
      obtain ⟨traces, hall, h⟩ := bind_eq_ok h
      have haccounts := accountsAll_of_interpret dependencies hall
      obtain ⟨trace, htrace, rfl⟩ := map_eq_ok h
      refine ⟨⟨traces, haccounts, haccounts.shown hempty, rfl⟩, ?_⟩
      cases hpassed : traces.all (·.result) with
      | true =>
        rw [hpassed, if_pos rfl] at htrace
        rw [if_neg nofun]
        exact accountsTest_gated (accountsTest_of_interpret test htrace) _ _
      | false =>
        rw [hpassed] at htrace
        cases htrace
        rw [if_pos rfl]
        exact ⟨⟨rfl, rfl⟩, rfl, rfl, rfl, rfl, rfl⟩

theorem accountsTest_of_interpret : (test : Test Rule) →
    ∀ {op : Operator} {scope : ScopeId} {record : Json} {env : Environment} {t : Trace},
      interpretTest tongue now op scope test record env = .ok t →
        AccountsTest now op test record t
  | .compare as left right, op, scope, record, env, t, h => by
    exact accountsComparison h
  | .presence left, op, scope, record, env, t, h => by
    rw [interpretTest] at h
    rw [AccountsTest]
    cases left with
    | none =>
      cases h
      exact ⟨rfl, rfl, rfl, rfl, rfl, rfl, rfl⟩
    | some o =>
      obtain ⟨v, hv, h⟩ := bind_eq_ok h
      cases h
      exact ⟨⟨tongue scope, env, rfl, hv⟩, ⟨rfl, rfl⟩, testPresence_eq_true_iff v⟩
  | .compound cs, op, scope, record, env, t, h => by
    obtain ⟨traces, hall, h⟩ := bind_eq_ok h
    exact ⟨traces, accountsAll_of_interpret cs hall, accountsGroup h⟩
  | .iterate left cs, op, scope, record, env, t, h => by
    rw [interpretTest] at h
    obtain ⟨v, hv, h⟩ := bind_eq_ok h
    obtain ⟨elements, helements, h⟩ := bind_eq_ok h
    obtain ⟨group, hgroup, h⟩ := bind_eq_ok h
    cases h
    obtain ⟨result, -, hgroup'⟩ := bind_eq_ok hgroup
    have henv : group.environment = some env := by
      cases hgroup'
      rfl
    refine ⟨elements, _, rfl, ⟨tongue scope, v, ⟨env, henv, hv⟩, rfl⟩, ?_, ?_⟩
    · refine (forall₂_of_mapM helements).imp fun target element htarget => ?_
      obtain ⟨traces, hall, htarget⟩ := bind_eq_ok htarget
      cases htarget
      exact ⟨traces, accountsAll_of_interpret cs hall, ⟨rfl, rfl⟩, ⟨rfl, rfl⟩, rfl, rfl⟩
    · obtain ⟨htyped, hresults, hresult⟩ := accountsGroup hgroup
      exact ⟨htyped, hresults, hresult⟩

theorem accountsAll_of_interpret : (rs : List Rule) →
    ∀ {record : Json} {env : Environment} {ts : List Trace},
      interpretAll tongue now rs record env = .ok ts → AccountsAll now rs record ts
  | [], record, env, ts, h => by
    cases h
    rfl
  | r :: rest, record, env, ts, h => by
    obtain ⟨t, hr, h⟩ := bind_eq_ok h
    obtain ⟨more, hrest, h⟩ := bind_eq_ok h
    cases h
    exact ⟨t, more, rfl, accounts_of_interpret r hr, accountsAll_of_interpret rest hrest⟩
end

/-- The traces of a compiled rule account for its results, to the last of the traces below. -/
theorem accounts_of_run {r : Rule} {s u : Session} {force : Bool} {c : Check}
    (hr : Reliable s.tongue r) (hs : s.Reached) (hc : (r.compile force s).1.1 = .ok c)
    (hu : u.Reached) (now : Instant) (record : Json) (env : Environment) {t : Trace}
    (ht : (c.run now record env u).1 = .ok t) : r.Accounts now record t := by
  obtain ⟨-, r', hessence, -, hsays⟩ := hr.says_like hs.sound hc
  obtain ⟨v, hrun, -⟩ := hsays now record env u hu.sound
  rw [hrun] at ht
  have haccounts : r'.Accounts now record t := accounts_of_interpret r' ht
  rw [← accounts_bare now fun _ => ⟨0⟩] at haccounts ⊢
  rw [← essence, ← hessence]
  exact haccounts

/-- The trace of a rule about two elements that depends on another rule. -/
theorem accounts_of_run_elements :
    let leaf := of ⟨0⟩ (.compare .values none none) .equal
    let r := (iterate ⟨0⟩ (.literal (.arr [.null, .bool true])) .notAll [leaf]).dependingOn
      (of ⟨0⟩ (.compound [leaf]) .all)
    let s : Session := {}
    Reliable s.tongue r ∧ s.Reached ∧ ∃ c t, (r.compile false s).1.1 = .ok c ∧
      (c.run default .null [] s).1 = .ok t ∧ t.dependencies = some true ∧ t.result = false ∧
        r.Accounts default .null t := by
  intro leaf r s
  have hcold : ∀ n ∈ r.nodes, n.memo = none := by
    have hnodes : r.nodes = [r, leaf, of ⟨0⟩ (.compound [leaf]) .all, leaf] := rfl
    rw [hnodes]
    simp only [List.forall_mem_cons]
    exact ⟨rfl, rfl, rfl, rfl, nofun⟩
  have hr : Reliable s.tongue r := .warmed (.cold hcold)
  have hs : s.Reached := Session.reached_empty
  have hruns : ∃ c t, (r.compile false s).1.1 = .ok c ∧ (c.run default .null [] s).1 = .ok t ∧
      t.dependencies = some true ∧ t.result = false := ⟨_, _, rfl, rfl, rfl, rfl⟩
  obtain ⟨c, t, hc, ht, hdependencies, hresult⟩ := hruns
  exact ⟨hr, hs, c, t, hc, ht, hdependencies, hresult,
    accounts_of_run hr hs hc hs default .null [] ht⟩

end Rule

end Verdict
