import Verdict.Proofs.Rule.Run

/-!
# Compiling rules

Compiling a rule fails exactly as its audit does, and otherwise makes or finds a check that says
what the rule means, provided the checks that were kept in the tree can be trusted.
-/

namespace Verdict.Rule

variable {tongue : ScopeId → String}

/-! ## Leaves -/

def FindsBound (kind : Kind) (locale : String) (o : Option Operand) (g : Getter) : Prop :=
  ∀ now record env, Operand.findBound kind locale now record env o =
    .ok (g.value now record env)

theorem compile?_makes (kind : Kind) (scope : ScopeId) (o : Option Operand) :
    Work.Makes tongue (Operand.compile? kind scope o) (Operand.auditBound o)
      (FindsBound kind (tongue scope) o) := by
  cases o with
  | none => exact Work.makes_pure fun _ _ _ => rfl
  | some o => exact Operand.compile_makes kind scope o

theorem compileSides_makes (kind : Kind) (scope : ScopeId) (op : Operator)
    (left right : Option Operand) :
    Work.Makes tongue (compileSides kind scope op left right) (auditSides kind op left right)
      fun sides => FindsBound kind (tongue scope) left sides.1
        ∧ FindsBound kind (tongue scope) right sides.2 := by
  rw [compileSides, auditSides]
  cases left with
  | none => exact Work.makes_throw _
  | some l =>
    have hsides : Work.Makes tongue
        (do return (← l.compile kind scope, ← Operand.compile? kind scope right))
        (do l.audit; Operand.auditBound right)
        fun sides => FindsBound kind (tongue scope) (some l) sides.1
          ∧ FindsBound kind (tongue scope) right sides.2 := by
      refine (Operand.compile_makes kind scope l).bind fun g hg => ?_
      exact (compile?_makes kind scope right).map fun h hh => ⟨hg, hh⟩
    simp only [required]
    split
    · cases right with
      | none => exact Work.makes_throw _
      | some r => exact hsides
    · exact hsides

theorem preparePattern_makes (scope : ScopeId) (op : Operator) (right : Option Operand) :
    Work.Makes tongue (preparePattern scope op (rightText right) right) (auditPattern op right)
      fun _ => True := by
  cases op with
  | matching =>
    unfold preparePattern auditPattern
    cases literalPattern? right with
    | none => exact Work.makes_pure trivial
    | some pattern =>
      intro s hs _
      obtain ⟨t, hrun, hst⟩ := Work.pattern_yields scope pattern s hs
      dsimp only
      rw [hrun]
      cases Pattern.buildDelimited pattern with
      | error f => exact ⟨hst, rfl⟩
      | ok p => exact ⟨hst, rfl, trivial⟩
  | _ => exact Work.makes_pure trivial

/-- A comparison of dates looks at two instants, or at one and two bounds. -/
theorem saysTest_temporal {op : Operator} {scope : ScopeId} {as : Comparand}
    {left right : Option Operand} {l r : Getter} (has : as ≠ .values)
    (hsome : ¬(left.isNone && right.isNone) = true)
    (hl : FindsBound as.kind (tongue scope) left l)
    (hr : FindsBound as.kind (tongue scope) right r) :
    SaysTest tongue op scope (if op.isTemporalExtent then .extent l r else .instants l r)
      (.compare as left right) := by
  intro now record env
  rw [interpretTest, interpretComparison, if_neg hsome, hl, hr, Test.kind_compare]
  cases as with
  | values => exact absurd rfl has
  | _ => cases hop : op.isTemporalExtent <;> exact Work.yields_pure _

theorem compileComparison_makes (scope : ScopeId) (op : Operator) (as : Comparand)
    (left right : Option Operand) :
    Work.Makes tongue (compileComparison scope op as left right)
      (auditComparison op as left right)
      (SaysTest tongue op scope · (.compare as left right)) := by
  unfold compileComparison auditComparison
  split
  · rename_i hnone
    refine Work.makes_pure fun now record env => ?_
    rw [interpretTest, interpretComparison, if_pos hnone]
    exact Work.yields_pure _
  · rename_i hsome
    have htemporal : as ≠ .values → Work.Makes tongue
        (do
          let sides ← compileSides as.kind scope op left right
          return if op.isTemporalExtent then .extent sides.1 sides.2
            else .instants sides.1 sides.2)
        (auditSides as.kind op left right) (SaysTest tongue op scope · (.compare as left right)) :=
      fun has => (compileSides_makes as.kind scope op left right).map
        fun sides hsides => saysTest_temporal has hsome hsides.1 hsides.2
    cases as with
    | values =>
      simp only [compileValues]
      split
      · exact Work.makes_throw _
      · refine (preparePattern_makes scope op right).bind fun _ _ => ?_
        refine (compileSides_makes .primitive scope op left right).map fun sides hsides => ?_
        intro now record env
        have htest := Check.testValues_yields op scope (rightText right)
          (sides.1.value now record env) (sides.2.value now record env)
        rw [interpretTest, interpretComparison, if_neg hsome, Comparand.kind, hsides.1, hsides.2]
        exact htest.bind fun _ => Work.yields_pure _
    | dates =>
      have h := htemporal (by decide)
      simp only [compileInstants]
      cases hextent : op.isTemporalExtent <;> rw [hextent] at h <;> exact h
    | times =>
      have h := htemporal (by decide)
      simp only [compileInstants]
      cases hextent : op.isTemporalExtent <;> rw [hextent] at h
      · cases hop : op.isTemporal
        · exact Work.makes_throw _
        · exact h
      · exact h

theorem compilePresence_makes (scope : ScopeId) (op : Operator) (left : Option Operand) :
    Work.Makes tongue (compilePresence scope left) (Operand.auditBound left)
      (SaysTest tongue op scope · (.presence left)) := by
  cases left with
  | none => exact Work.makes_pure fun _ _ _ => Work.yields_pure _
  | some o =>
    refine (Operand.compile_makes .presence scope o).map fun g hg now record env => ?_
    rw [interpretTest, Operand.findBound, hg]
    exact Work.yields_pure _

theorem compileVariables_makes (kind : Kind) (scope : ScopeId) (locals : Members Operand) :
    Work.Makes tongue (compileVariables kind scope locals) (auditVariables locals)
      (FindsAll kind (tongue scope) locals) := by
  induction locals with
  | nil => exact Work.makes_pure .nil
  | cons l rest ih =>
    obtain ⟨name, o⟩ := l
    refine (Operand.compile_makes kind scope o).bind fun g hg => ?_
    exact ih.map fun getters hgetters => .cons ⟨rfl, hg⟩ hgetters

/-! ## Groups -/

theorem compileCollection_makes (scope : ScopeId) (op : Operator) (left : Option Operand)
    (cs : List Rule) :
    Work.Makes tongue (compileCollection scope op left cs) (auditCollection op left cs)
      (FindsBound .iterate (tongue scope) left) := by
  rw [compileCollection, auditCollection]
  cases checkGroup .iterate op cs .iterateEmpty .iterateOperator with
  | error f => exact Work.makes_throw f
  | ok _ =>
    cases left with
    | none => exact Work.makes_throw _
    | some l => exact Operand.compile_makes .iterate scope l

variable {op : Operator} {scope : ScopeId} {checks : List Check} {cs : List Rule}

theorem saysTest_compound (h : List.Forall₂ (Says tongue) checks cs) :
    SaysTest tongue op scope (.compound checks) (.compound cs) := by
  intro now record env
  rw [Check.runMain, interpretTest]
  exact (runAll_yields h).bind fun traces => Check.group_yields .compound op env traces

theorem saysTest_iterate {left : Option Operand} {collection : Getter}
    (hleft : FindsBound .iterate (tongue scope) left collection)
    (h : List.Forall₂ (Says tongue) checks cs) :
    SaysTest tongue op scope (.iterate collection checks) (.iterate left cs) := by
  intro now record env
  rw [Check.runMain, interpretTest, hleft]
  refine (Work.yields_mapM (fun target => ?_) _).bind fun traces => ?_
  · exact (runAll_yields h).bind fun results => Work.yields_pure _
  · exact (Check.group_yields .iterate op env traces).bind fun trace => Work.yields_pure _

/-! ## Recalled trees -/

section Recalled

variable (move : ScopeId → ScopeId)

/-- A check says what a tree means that is the rule but for its scopes.  They need not be those
of the rule: a check below may have been kept since the tree had others. -/
def Recalls (tongue : ScopeId → String) (c : Check) (r : Rule) : Prop :=
  ∃ t : Rule, t.bare move = r.bare move ∧ Says tongue c t

def RecallsTest (tongue : ScopeId → String) (op : Operator) (scope : ScopeId) (main : Main)
    (test : Test Rule) : Prop :=
  ∃ test', bareBelow move test' = bareBelow move test ∧ SaysTest tongue op scope main test'

def RecallsAll (tongue : ScopeId → String) (checks : List Check) (rs : List Rule) : Prop :=
  ∃ ts, bareAll move ts = bareAll move rs ∧ List.Forall₂ (Says tongue) checks ts

variable {move}

theorem Says.recalls {c : Check} {r : Rule} (h : Says tongue c r) : Recalls move tongue c r :=
  ⟨r, rfl, h⟩

/-- With the scopes of the rule nothing is left to choose. -/
theorem recalls_id : Recalls id tongue = Says tongue := by
  funext c r
  refine propext ⟨fun ⟨t, hbare, hsays⟩ now record env => ?_, Says.recalls⟩
  rw [← interpret_eq_of_bare tongue now hbare]
  exact hsays now record env

theorem SaysTest.recalls {main : Main} {test : Test Rule} (h : SaysTest tongue op scope main test) :
    RecallsTest move tongue op scope main test :=
  ⟨test, rfl, h⟩

theorem RecallsAll.cons {c : Check} {r : Rule} (h : Recalls move tongue c r)
    (hrest : RecallsAll move tongue checks cs) :
    RecallsAll move tongue (c :: checks) (r :: cs) := by
  obtain ⟨t, hbare, hsays⟩ := h
  obtain ⟨ts, hbareAll, hsaysAll⟩ := hrest
  refine ⟨t :: ts, ?_, .cons hsays hsaysAll⟩
  rw [bareAll, bareAll, hbare, hbareAll]

theorem recallsTest_compound (h : RecallsAll move tongue checks cs) :
    RecallsTest move tongue op scope (.compound checks) (.compound cs) := by
  obtain ⟨ts, hbare, hsays⟩ := h
  exact ⟨.compound ts, congrArg Test.compound hbare, saysTest_compound hsays⟩

theorem recallsTest_iterate {left : Option Operand} {collection : Getter}
    (hleft : FindsBound .iterate (tongue scope) left collection)
    (h : RecallsAll move tongue checks cs) :
    RecallsTest move tongue op scope (.iterate collection checks) (.iterate left cs) := by
  obtain ⟨ts, hbare, hsays⟩ := h
  exact ⟨.iterate left ts, congrArg (Test.iterate left) hbare, saysTest_iterate hleft hsays⟩

theorem recalls_mk {identity : Nat} {test : Test Rule} {dependencies : List Rule}
    {locals : Members Operand} {description : Option String} {memo : Option Memo}
    {getters : List (String × Getter)} {main : Main}
    (hlocals : FindsAll test.kind (tongue scope) locals getters)
    (hdependencies : RecallsAll move tongue checks dependencies)
    (htest : RecallsTest move tongue op scope main test) :
    Recalls move tongue ⟨identity, test.kind, op, getters, checks, main⟩
      ⟨test, op, dependencies, locals, description, scope, memo⟩ := by
  obtain ⟨ts, hbare, hsays⟩ := hdependencies
  obtain ⟨test', hbareTest, hsaysTest⟩ := htest
  have hkind : test.kind = test'.kind := by
    rw [← kind_bareBelow move test, ← hbareTest, kind_bareBelow]
  refine ⟨⟨test', op, ts, locals, description, scope, memo⟩, ?_, ?_⟩
  · rw [bare, bare, hbare, hbareTest]
  · rw [hkind] at hlocals ⊢
    exact says_mk hlocals hsays hsaysTest

end Recalled

/-! ## Trees -/

/-- What the checks kept in a tree are like, node by node. -/
def Keeps (P : Rule → Memo → Prop) (rs : List Rule) : Prop :=
  ∀ n ∈ rs, ∀ m, n.memo = some m → P (n.bare id) m

/-- Kept checks like these may stand for a node, and those made of the node are like these. -/
structure Trusts (Good : Check → Rule → Prop) (P : Rule → Memo → Prop) (n : Rule) : Prop where
  use : ∀ m, P (n.bare id) m → m.digest = n.digest → n.audit = .ok () ∧ Good m.check n
  made : ∀ c, n.audit = .ok () → Good c n → P (n.bare id) ⟨n.digest, c⟩

variable {P : Rule → Memo → Prop}

theorem keeps_append {ns rs : List Rule} : Keeps P (ns ++ rs) ↔ Keeps P ns ∧ Keeps P rs := by
  simp only [Keeps, List.mem_append]
  grind

theorem keeps_nodes {r : Rule} : Keeps P r.nodes ↔ (∀ m, r.memo = some m → P (r.bare id) m) ∧
    Keeps P (nodesBelow r.test) ∧ Keeps P (nodesAll r.dependencies) := by
  rw [nodes_eq, ← keeps_append, Keeps, Keeps, List.forall_mem_cons]

/-- A node may be replaced by one that differs in trustworthy kept checks only. -/
theorem keeps_setNode {n n' : Rule} (hbare : n'.bare id = n.bare id) (hkeep : Keeps P n'.nodes)
    {way : List Branch} : {r : Rule} → r.node? way = some n → Keeps P r.nodes →
      Keeps P (r.setNode n' way).nodes := by
  induction way with
  | nil => exact fun _ _ => hkeep
  | cons b way ih =>
    intro r h hr
    have hbare := bare_setNode hbare h
    obtain ⟨hmemo, hbelow, hdepend⟩ := keeps_nodes.mp hr
    cases b with
    | child i =>
      obtain ⟨c, hc, hn⟩ := node?_child h
      have hchild := ih hn fun m hm => hbelow m (nodes_subset_child hc hm)
      refine keeps_nodes.mpr ⟨?_, fun m hm => ?_, hdepend⟩
      · rw [hbare]
        exact hmemo
      · rcases mem_nodesAll_modify hc (nodesBelow_withChildren hm) with hm | hm
        · exact hchild m hm
        · exact hbelow m (nodesBelow_eq r.test ▸ hm)
    | dependency i =>
      obtain ⟨d, hd, hn⟩ := node?_dependency h
      have hdependency := ih hn fun m hm => hdepend m (nodes_subset_dependency hd hm)
      refine keeps_nodes.mpr ⟨?_, hbelow, fun m hm => ?_⟩
      · rw [hbare]
        exact hmemo
      · rcases mem_nodesAll_modify hd hm with hm | hm
        · exact hdependency m hm
        · exact hdepend m hm

/-- Trees that differ in their kept checks only have tests of one kind. -/
theorem kind_eq_of_bareBelow {test test' : Test Rule} (h : bareBelow id test' = bareBelow id test) :
    test'.kind = test.kind := by
  rw [← kind_bareBelow id, h, kind_bareBelow]

variable {move : ScopeId → ScopeId}

mutual
/-- Compiling settles the audit of a rule with a check that recalls it.  The rule changes in
nothing but the checks kept in it, and those stay trustworthy. -/
theorem compile_recalls (force : Bool) : (r : Rule) →
    (∀ n ∈ r.nodes, Trusts (Recalls move tongue) P n) → Keeps P r.nodes →
    Work.Ends tongue (compile force r) fun out =>
      Work.Settles r.audit (Recalls move tongue · r) out.1 ∧ out.2.bare id = r.bare id
        ∧ Keeps P out.2.nodes
  | ⟨test, op, dependencies, locals, description, scope, memo⟩, htrust, hkeep => by
    have hself := htrust _ (mem_nodes_self _)
    obtain ⟨hmemo, hbelow, hdepend⟩ := keeps_nodes.mp hkeep
    rw [nodes, List.forall_mem_cons, List.forall_mem_append] at htrust
    obtain ⟨-, htrustBelow, htrustDepend⟩ := htrust
    rw [compile, audit]
    simp only []
    split
    · rename_i m hm
      obtain ⟨hm, hcurrent⟩ := Option.filter_eq_some_iff.mp hm
      rw [Bool.and_eq_true, beq_iff_eq] at hcurrent
      exact Work.ends_pure ⟨hself.use m (hmemo m hm) hcurrent.2, rfl, hkeep⟩
    · refine Work.Ends.bind (compileVariables_makes test.kind scope locals) fun result hres => ?_
      cases result with
      | error f =>
        refine Work.ends_pure ⟨?_, rfl, hkeep⟩
        rw [show auditVariables locals = .error f from hres]
        exact rfl
      | ok getters =>
        obtain ⟨hvariables, hgetters⟩ := hres
        rw [hvariables]
        refine (compileAll_recalls dependencies htrustDepend hdepend).bind
          fun (result, dependencies') ⟨hres, hbare, hdepend⟩ => ?_
        cases result with
        | error f =>
          refine Work.ends_pure ⟨?_, ?_, keeps_nodes.mpr ⟨?_, hbelow, hdepend⟩⟩
          · rw [show auditAll dependencies = .error f from hres]
            exact rfl
          · rw [bare, bare, hbare]
          · rw [bare, hbare]
            exact hmemo
        | ok checks =>
          obtain ⟨hdependencies, hchecks⟩ := hres
          rw [hdependencies]
          refine (compileTest_recalls scope op test htrustBelow hbelow).bind
            fun (result, test') ⟨hres, hbareTest, hbelow⟩ => ?_
          cases result with
          | error f =>
            refine Work.ends_pure ⟨?_, ?_, keeps_nodes.mpr ⟨?_, hbelow, hdepend⟩⟩
            · exact hres
            · rw [bare, bare, hbare, hbareTest]
            · rw [bare, hbare, hbareTest]
              exact hmemo
          | ok main =>
            obtain ⟨htest, hmain⟩ := hres
            refine Work.ends_fresh.bind fun identity _ => ?_
            have hrecalls : Recalls move tongue ⟨identity, test'.kind, op, getters, checks, main⟩
                ⟨test, op, dependencies, locals, description, scope, memo⟩ := by
              rw [kind_eq_of_bareBelow hbareTest]
              exact recalls_mk hgetters hchecks hmain
            refine Work.ends_pure ⟨⟨htest, hrecalls⟩, ?_, keeps_nodes.mpr ⟨?_, hbelow, hdepend⟩⟩
            · rw [bare, bare, hbare, hbareTest]
            · rw [bare, hbare, hbareTest]
              intro m hm
              split at hm
              · exact hmemo m hm
              · cases hm
                refine hself.made _ ?_ hrecalls
                rw [audit, hvariables, hdependencies]
                exact htest

theorem compileTest_recalls (scope : ScopeId) (op : Operator) : (test : Test Rule) →
    (∀ n ∈ nodesBelow test, Trusts (Recalls move tongue) P n) → Keeps P (nodesBelow test) →
    Work.Ends tongue (compileTest scope op test) fun out =>
      Work.Settles (auditTest op test) (RecallsTest move tongue op scope · test) out.1
        ∧ bareBelow id out.2 = bareBelow id test ∧ Keeps P (nodesBelow out.2)
  | .compare as left right, _, hkeep => by
    rw [compileTest, auditTest]
    refine Work.Ends.bind (compileComparison_makes scope op as left right) fun result h => ?_
    exact Work.ends_pure ⟨h.imp fun _ => SaysTest.recalls, rfl, hkeep⟩
  | .presence left, _, hkeep => by
    rw [compileTest, auditTest]
    refine Work.Ends.bind (compilePresence_makes scope op left) fun result h => ?_
    exact Work.ends_pure ⟨h.imp fun _ => SaysTest.recalls, rfl, hkeep⟩
  | .compound cs, htrust, hkeep => by
    rw [compileTest, auditTest]
    cases checkGroup .compound op cs .compoundEmpty .compoundOperator with
    | error f => exact Work.ends_pure ⟨rfl, rfl, hkeep⟩
    | ok _ =>
      refine (compileAll_recalls cs htrust hkeep).bind fun (result, cs') ⟨hres, hbare, hkeep⟩ => ?_
      refine Work.ends_pure ⟨?_, congrArg Test.compound hbare, hkeep⟩
      exact hres.map fun checks => recallsTest_compound
  | .iterate left cs, htrust, hkeep => by
    rw [compileTest, auditTest]
    refine Work.Ends.bind (compileCollection_makes scope op left cs) fun result h => ?_
    cases result with
    | error f =>
      refine Work.ends_pure ⟨?_, rfl, hkeep⟩
      rw [show auditCollection op left cs = .error f from h]
      exact rfl
    | ok collection =>
      obtain ⟨haudit, hleft⟩ := h
      refine (compileAll_recalls cs htrust hkeep).bind fun (result, cs') ⟨hres, hbare, hkeep⟩ => ?_
      refine Work.ends_pure ⟨?_, congrArg (Test.iterate left) hbare, hkeep⟩
      rw [haudit]
      exact hres.map fun checks => recallsTest_iterate hleft

theorem compileAll_recalls : (rs : List Rule) →
    (∀ n ∈ nodesAll rs, Trusts (Recalls move tongue) P n) → Keeps P (nodesAll rs) →
    Work.Ends tongue (compileAll rs) fun out =>
      Work.Settles (auditAll rs) (RecallsAll move tongue · rs) out.1
        ∧ bareAll id out.2 = bareAll id rs ∧ Keeps P (nodesAll out.2)
  | [], _, hkeep => by
    exact Work.ends_pure ⟨⟨rfl, [], rfl, .nil⟩, rfl, hkeep⟩
  | r :: rest, htrust, hkeep => by
    obtain ⟨hkeep, hkeepRest⟩ := keeps_append.mp hkeep
    rw [nodesAll, List.forall_mem_append] at htrust
    rw [compileAll, auditAll]
    refine (compile_recalls false r htrust.1 hkeep).bind fun (result, r') ⟨hres, hbare, hkeep⟩ => ?_
    cases result with
    | error f =>
      refine Work.ends_pure ⟨?_, ?_, keeps_append.mpr ⟨hkeep, hkeepRest⟩⟩
      · rw [show r.audit = .error f from hres]
        exact rfl
      · rw [bareAll, bareAll, hbare]
    | ok check =>
      obtain ⟨haudit, hrecalls⟩ := hres
      refine (compileAll_recalls rest htrust.2 hkeepRest).bind
        fun (result, rest') ⟨hrest, hbareRest, hkeepRest⟩ => ?_
      refine Work.ends_pure ⟨?_, ?_, keeps_append.mpr ⟨hkeep, hkeepRest⟩⟩
      · rw [haudit]
        exact hrest.map fun checks => RecallsAll.cons hrecalls
      · rw [bareAll, bareAll, hbare, hbareRest]
end

/-- Where kept checks may stand for their nodes as they are, compiling makes a check that says what
the rule means. -/
theorem compile_ends (force : Bool) (r : Rule) (htrust : ∀ n ∈ r.nodes, Trusts (Says tongue) P n)
    (hkeep : Keeps P r.nodes) : Work.Ends tongue (compile force r) fun out =>
      Work.Settles r.audit (Says tongue · r) out.1 ∧ out.2.bare id = r.bare id
        ∧ Keeps P out.2.nodes := by
  rw [← recalls_id] at htrust ⊢
  exact compile_recalls force r htrust hkeep

section Forget

variable (σ : ScopeId)

mutual
/-- Compiling changes nothing but the checks that are kept. -/
theorem withScope_compile (force : Bool) : (r : Rule) →
    Work.Always (compile force r) fun out => out.2.withScope σ = r.withScope σ
  | ⟨test, op, dependencies, locals, description, scope, memo⟩ => by
    rw [compile]
    simp only []
    split
    · exact fun _ => rfl
    · refine (Work.always_true _).bind fun result _ => ?_
      cases result with
      | error f => exact fun _ => rfl
      | ok getters =>
        refine (withScopeAll_compileAll dependencies).bind fun (result, dependencies') hall => ?_
        cases result with
        | error f =>
          intro s
          change Rule.withScope σ ⟨test, op, dependencies', locals, description, scope, memo⟩ = _
          rw [withScope, withScope, hall]
        | ok checks =>
          refine (withScopeBelow_compileTest scope op test).bind fun (result, test') hbelow => ?_
          cases result <;>
          · intro s
            change Rule.withScope σ ⟨test', op, dependencies', locals, description, scope, _⟩ = _
            rw [withScope, withScope, hall, hbelow]

theorem withScopeBelow_compileTest (scope : ScopeId) (op : Operator) : (test : Test Rule) →
    Work.Always (compileTest scope op test) fun out =>
      withScopeBelow σ out.2 = withScopeBelow σ test
  | .compare as left right => fun _ => rfl
  | .presence left => fun _ => rfl
  | .compound cs => by
    rw [compileTest]
    cases checkGroup .compound op cs .compoundEmpty .compoundOperator with
    | error f => exact fun _ => rfl
    | ok _ =>
      exact (withScopeAll_compileAll cs).bind fun (result, cs') hall _ =>
        congrArg Test.compound hall
  | .iterate left cs => by
    rw [compileTest]
    refine (Work.always_true _).bind fun result _ => ?_
    cases result with
    | error f => exact fun _ => rfl
    | ok collection =>
      exact (withScopeAll_compileAll cs).bind fun (result, cs') hall _ =>
        congrArg (Test.iterate left) hall

theorem withScopeAll_compileAll : (rs : List Rule) →
    Work.Always (compileAll rs) fun out => withScopeAll σ out.2 = withScopeAll σ rs
  | [] => fun _ => rfl
  | r :: rest => by
    rw [compileAll]
    refine (withScope_compile false r).bind fun (result, r') hr => ?_
    cases result with
    | error f =>
      intro s
      change withScopeAll σ (r' :: rest) = _
      rw [withScopeAll, withScopeAll, hr]
    | ok check =>
      refine (withScopeAll_compileAll rest).bind fun (result, rest') hrest s => ?_
      change withScopeAll σ (r' :: rest') = _
      rw [withScopeAll, withScopeAll, hr, hrest]
end

end Forget

/-! ## Kept checks -/

/-- A check that was kept is found again as long as the digest is the same. -/
theorem compile_kept {r : Rule} {c : Check} (h : r.memo = some ⟨r.digest, c⟩) (s : Session) :
    r.compile false s = ((.ok c, r), s) := by
  obtain ⟨test, op, dependencies, locals, description, scope, memo⟩ := r
  have hkept : (memo.filter fun m => !false && m.digest ==
      digest ⟨test, op, dependencies, locals, description, scope, memo⟩) = some ⟨_, c⟩ :=
    Option.filter_eq_some_iff.mpr ⟨h, by simp⟩
  rw [compile]
  simp only [hkept]
  rfl

/-- The check that compiling comes to is kept with the digest of the rule. -/
theorem memo_compile {r : Rule} {s : Session} {c : Check} (h : (r.compile false s).1.1 = .ok c) :
    (r.compile false s).1.2.memo = some ⟨r.digest, c⟩ := by
  obtain ⟨test, op, dependencies, locals, description, scope, memo⟩ := r
  rw [compile] at h ⊢
  simp only [] at h ⊢
  generalize hcurrent : digest ⟨test, op, dependencies, locals, description, scope, memo⟩ = current
    at h ⊢
  cases hkept : memo.filter fun m => !false && m.digest == current with
  | some m =>
    simp only [hkept] at h ⊢
    obtain ⟨hmemo, hm⟩ := Option.filter_eq_some_iff.mp hkept
    cases h
    rw [Bool.and_eq_true, beq_iff_eq] at hm
    rw [← hm.2]
    exact hmemo
  | none =>
    simp only [hkept, Work.state_bind_apply] at h ⊢
    generalize compileVariables test.kind scope locals s = out at h ⊢
    obtain ⟨_ | getters, s'⟩ := out
    · cases h
    simp only [Work.state_bind_apply] at h ⊢
    generalize compileAll dependencies s' = out at h ⊢
    obtain ⟨⟨_ | checks, dependencies'⟩, s''⟩ := out
    · cases h
    simp only [Work.state_bind_apply] at h ⊢
    generalize compileTest scope op test s'' = out at h ⊢
    obtain ⟨⟨_ | main, test'⟩, t⟩ := out
    · cases h
    · cases h
      rfl

end Verdict.Rule
