import Verdict.Proofs.Operand.Paths
import Verdict.Proofs.Rule.Visit
import Verdict.Proofs.RuleBook.Run

/-!
# Paths that loading puts into the cache

A rule that is loaded is compiled with nothing kept in its nodes, so every node is made ready in
the scope of the book.  If that succeeds, the cache of the scope keeps exactly the paths of the
tree besides the ones that it kept before.
-/

namespace Verdict

open Session Work

namespace Rule

def ownPathTexts (n : Rule) : List String :=
  n.locals.flatMap (·.2.pathTexts) ++
    (Operand.pathTextsBound n.left ++ Operand.pathTextsBound n.right)

def pathTexts (r : Rule) : List String :=
  r.nodes.flatMap ownPathTexts

theorem ownPathTexts_bare (move : ScopeId → ScopeId) (n : Rule) :
    (n.bare move).ownPathTexts = n.ownPathTexts := by
  obtain ⟨test, op, dependencies, locals, description, scope, memo⟩ := n
  simp only [ownPathTexts, bare, left, right, left_bareBelow, right_bareBelow]

theorem pathTexts_bare (move : ScopeId → ScopeId) (r : Rule) :
    (r.bare move).pathTexts = r.pathTexts := by
  rw [pathTexts, nodes_bare, List.flatMap_map, pathTexts]
  exact congrArg r.nodes.flatMap (funext (ownPathTexts_bare move))

theorem pathTexts_withScope (scope : ScopeId) (r : Rule) :
    (r.withScope scope).pathTexts = r.pathTexts := by
  rw [← pathTexts_bare id, bare_withScope, pathTexts_bare]

/-! ## Leaves -/

theorem pathTextsBound_of_required {kind : Kind} {op : Operator} {reason : Reason}
    {o : Option Operand} {l : Operand} (h : required kind op reason o = .ok l) :
    Operand.pathTextsBound o = l.pathTexts := by
  cases o with
  | none => cases h
  | some o =>
    cases h
    rfl

theorem compileSides_primes (kind : Kind) (scope : ScopeId) (op : Operator)
    (left right : Option Operand) :
    Primes scope (Operand.pathTextsBound left ++ Operand.pathTextsBound right)
      (compileSides kind scope op left right) := by
  refine primes_lift_bind fun l hl => ?_
  rw [pathTextsBound_of_required hl]
  have hsides : Primes scope (l.pathTexts ++ Operand.pathTextsBound right) (do
      return (← l.compile kind scope, ← Operand.compile? kind scope right)) :=
    (l.compile_primes kind scope).bind fun _ =>
      (Operand.compile?_primes kind scope right).map fun _ => primes_pure _
  split
  · exact primes_lift_bind fun _ _ => hsides
  · exact hsides

theorem preparePattern_primes (scope : ScopeId) (op : Operator) (rightText : String)
    (right : Option Operand) : Primes scope [] (preparePattern scope op rightText right) := by
  unfold preparePattern
  split
  · rename_i pattern _
    intro s a t hs hrun
    rcases hpattern : Work.pattern scope pattern s with ⟨f | p, u⟩
    · simp only [hpattern] at hrun
      cases hrun
    · simp only [hpattern] at hrun
      cases hrun
      exact primes_pattern scope pattern s p t hs hpattern
  · exact primes_pure _

theorem compileComparison_primes (scope : ScopeId) (op : Operator) (as : Comparand)
    (left right : Option Operand) :
    Primes scope (Operand.pathTextsBound left ++ Operand.pathTextsBound right)
      (compileComparison scope op as left right) := by
  have hsides := fun kind => compileSides_primes kind scope op left right
  have hinstants : ∀ kind,
      Primes scope (Operand.pathTextsBound left ++ Operand.pathTextsBound right)
        (compileInstants kind scope op left right) := by
    intro kind
    unfold compileInstants
    split
    · exact (hsides kind).map fun _ => primes_pure _
    · split
      · exact primes_throw _
      · exact (hsides kind).map fun _ => primes_pure _
  unfold compileComparison
  split
  · rename_i hnone
    rw [Bool.and_eq_true, Option.isNone_iff_eq_none, Option.isNone_iff_eq_none] at hnone
    rw [hnone.1, hnone.2]
    exact primes_pure _
  · cases as with
    | values =>
      simp only [compileValues]
      split
      · exact primes_throw _
      · exact (preparePattern_primes scope op _ right).bind fun _ =>
          (hsides .primitive).map fun _ => primes_pure _
    | dates => exact hinstants .date
    | times => exact hinstants .time

theorem compilePresence_primes (scope : ScopeId) (left : Option Operand) :
    Primes scope (Operand.pathTextsBound left) (compilePresence scope left) := by
  cases left with
  | none => exact primes_pure _
  | some o => exact (o.compile_primes .presence scope).map fun _ => primes_pure _

theorem compileVariables_primes (kind : Kind) (scope : ScopeId) (locals : Members Operand) :
    Primes scope (locals.flatMap (·.2.pathTexts)) (compileVariables kind scope locals) := by
  induction locals with
  | nil => exact primes_pure []
  | cons l rest ih =>
    exact (l.2.compile_primes kind scope).bind fun _ => ih.map fun _ => primes_pure _

theorem compileCollection_primes (scope : ScopeId) (op : Operator) (left : Option Operand)
    (cs : List Rule) :
    Primes scope (Operand.pathTextsBound left) (compileCollection scope op left cs) := by
  refine primes_lift_bind fun _ _ => primes_lift_bind fun l hl => ?_
  rw [pathTextsBound_of_required hl]
  exact l.compile_primes .iterate scope

/-! ## Trees -/

/-- Nothing is kept in the nodes, and all of them are in one scope. -/
def Unmade (scope : ScopeId) (rs : List Rule) : Prop :=
  ∀ n ∈ rs, n.scope = scope ∧ n.memo = none

/-- Compiling that puts exactly these paths into the cache of a scope, if it succeeds. -/
def Fills {α β : Type} (scope : ScopeId) (texts : List String)
    (w : StateM Session (Except Fault α × β)) : Prop :=
  ∀ s a b t, s.Unbounded scope → w s = ((.ok a, b), t) → Primed scope texts s t

section Trees

variable {scope : ScopeId}

mutual
/-- Compiling a tree in which nothing is kept puts exactly its paths into the cache. -/
theorem compile_fills (force : Bool) : (r : Rule) → Unmade scope r.nodes →
    Fills scope r.pathTexts (compile force r)
  | ⟨test, op, dependencies, locals, description, scope', memo⟩, hr => by
    rw [nodes, Unmade, List.forall_mem_cons, List.forall_mem_append] at hr
    obtain ⟨⟨hscope, hmemo⟩, hbelow, hdepend⟩ := hr
    obtain rfl : scope = scope' := hscope.symm
    intro s c r' w hs hrun
    have hcompiles := compiles force ⟨test, op, dependencies, locals, description, scope, memo⟩ s
    rw [hrun] at hcompiles
    cases hcompiles with
    | found _ hkept => cases hmemo.symm.trans hkept
    | @made getters checks main ds test' t u v _ _ hlocals hdependencies htest _ =>
      have hst := compileVariables_primes test.kind scope locals s getters t hs hlocals
      have htu := compileAll_fills dependencies hdepend t checks ds u hst.unbounded hdependencies
      have huv := compileTest_fills op test hbelow u main test' v htu.unbounded htest
      have hvw : Primed scope [] v { v with fresh := v.fresh + 1 } :=
        primed_nil huv.unbounded rfl rfl
      refine (((hst.trans htu).trans huv).trans hvw).congr fun text => ?_
      simp only [pathTexts, nodes, ownPathTexts, List.flatMap_cons, List.flatMap_append,
        List.mem_append, List.not_mem_nil, left, right]
      tauto

theorem compileTest_fills (op : Operator) : (test : Test Rule) → Unmade scope (nodesBelow test) →
    Fills scope (Operand.pathTextsBound test.left ++ Operand.pathTextsBound test.right ++
      (nodesBelow test).flatMap ownPathTexts) (compileTest scope op test)
  | .compare as left right, _ => by
    intro s main test' t hs hrun
    rw [compileTest, state_bind_apply] at hrun
    obtain ⟨hresult, rfl⟩ := Prod.mk.inj hrun
    have h := compileComparison_primes scope op as left right s main _ hs
      (Prod.ext (Prod.mk.inj hresult).1 rfl)
    exact h.congr fun text => by simp [nodesBelow, Test.left, Test.right]
  | .presence left, _ => by
    intro s main test' t hs hrun
    rw [compileTest, state_bind_apply] at hrun
    obtain ⟨hresult, rfl⟩ := Prod.mk.inj hrun
    have h := compilePresence_primes scope left s main _ hs (Prod.ext (Prod.mk.inj hresult).1 rfl)
    exact h.congr fun text => by
      simp [nodesBelow, Test.left, Test.right, Operand.pathTextsBound]
  | .compound cs, hcs => by
    intro s main test' t hs hrun
    rw [compileTest] at hrun
    rcases hgroup : checkGroup .compound op cs .compoundEmpty .compoundOperator with f | _ <;>
      simp only [hgroup] at hrun
    · cases hrun
    · rw [state_bind_apply] at hrun
      rcases hall : compileAll cs s with ⟨⟨f | checks, cs'⟩, u⟩ <;> rw [hall] at hrun
      · cases hrun
      · cases hrun
        have h := compileAll_fills cs hcs s checks cs' u hs hall
        exact h.congr fun text => by
          simp [nodesBelow, Test.left, Test.right, Operand.pathTextsBound]
  | .iterate left cs, hcs => by
    intro s main test' t hs hrun
    rw [compileTest, state_bind_apply] at hrun
    rcases hcollection : compileCollection scope op left cs s with ⟨f | collection, u⟩ <;>
      rw [hcollection] at hrun
    · cases hrun
    · simp only [state_bind_apply] at hrun
      rcases hall : compileAll cs u with ⟨⟨f | checks, cs'⟩, v⟩ <;> rw [hall] at hrun
      · cases hrun
      · cases hrun
        have hsu := compileCollection_primes scope op left cs s collection u hs hcollection
        have huv := compileAll_fills cs hcs u checks cs' v hsu.unbounded hall
        exact (hsu.trans huv).congr fun text => by
          simp [nodesBelow, Test.left, Test.right, Operand.pathTextsBound]

theorem compileAll_fills : (rs : List Rule) → Unmade scope (nodesAll rs) →
    Fills scope ((nodesAll rs).flatMap ownPathTexts) (compileAll rs)
  | [], _ => by
    intro s checks rs' t hs hrun
    cases hrun
    exact primed_nil hs rfl rfl
  | r :: rest, hrs => by
    rw [nodesAll, Unmade, List.forall_mem_append] at hrs
    intro s checks rs' u hs hrun
    rw [compileAll_cons] at hrun
    rcases hfirst : compile false r s with ⟨⟨f | c, r'⟩, t⟩ <;> rw [hfirst] at hrun
    · cases hrun
    · rcases hrest : compileAll rest t with ⟨⟨f | cs, rest'⟩, v⟩ <;>
        simp only [hrest] at hrun
      · cases hrun
      · cases hrun
        have hst := compile_fills false r hrs.1 s c r' t hs hfirst
        rw [nodesAll, List.flatMap_append]
        exact hst.trans (compileAll_fills rest hrs.2 t cs rest' u hst.unbounded hrest)
end

end Trees

end Rule

/-! ## Loading -/

namespace RuleBook

variable {b b' : RuleBook} {s t : Session}

theorem load_primed {d : Definition} (hs : s.Unbounded b.scope) (id : String)
    (h : b.load id d s = (.ok b', t)) :
    ∃ r, Rule.ofDefinition b.scope d = .ok r ∧ Primed b.scope r.pathTexts s t := by
  rw [load_apply] at h
  rcases hr : Rule.ofDefinition b.scope d with f | r <;> simp only [hr] at h
  · cases h
  · rcases hrun : r.compile false s with ⟨⟨f | c, r'⟩, u⟩ <;> rw [hrun] at h
    · cases h
    · cases h
      have hunmade : Rule.Unmade b.scope r.nodes := by
        rw [← Rule.withScope_ofDefinition b.scope d hr]
        exact Rule.mem_nodes_withScope b.scope r
      exact ⟨r, rfl, Rule.compile_fills false r hunmade s c r' t hs hrun⟩

/-- Loading a rule, a definition or a text that succeeds enters the paths of the tree into the
cache of the book's scope, and nothing else. -/
theorem load_primes (hs : s.Unbounded b.scope) (id : String) :
    (∀ r, b.loadRule id r s = (.ok b', t) → Primed b.scope r.pathTexts s t) ∧
    (∀ d, b.load id d s = (.ok b', t) →
      ∃ r, Rule.ofDefinition b.scope d = .ok r ∧ Primed b.scope r.pathTexts s t) ∧
    (∀ text, b.loadText id text s = (.ok b', t) →
      ∃ d r, Definition.ofText text = some d ∧ Rule.ofDefinition b.scope d = .ok r ∧
        Primed b.scope r.pathTexts s t) := by
  refine ⟨fun r h => ?_, fun d h => load_primed hs id h, fun text h => ?_⟩
  · rw [loadRule_eq] at h
    obtain ⟨r', hr, hprimed⟩ := load_primed hs id h
    rw [Rule.ofDefinition_toDefinition] at hr
    cases hr
    rwa [Rule.pathTexts_withScope] at hprimed
  · rw [loadText] at h
    rcases hd : Definition.ofText text with _ | d <;> simp only [hd] at h
    · cases h
    · obtain ⟨r, hr, hprimed⟩ := load_primed hs id h
      exact ⟨d, r, rfl, hr, hprimed⟩

def gathering : Rule :=
  .of ⟨3⟩ (.compare .values (some ⟨.path "a" true, [⟨.collect "b", false⟩, ⟨.get "c", false⟩]⟩)
    none) .isTrue

def gatheringText : String :=
  gathering.toDefinition.toJson.text

/-- The third path does not come into the cache, in whichever way the rule is loaded. -/
theorem load_primes_gathering :
    let s := (({} : Session).openScope {}).2
    let b : RuleBook := ⟨⟨0⟩, []⟩
    s.Unbounded b.scope ∧ ∃ b' t,
      (b.loadRule "x" gathering s = (.ok b', t) ∧ Primed b.scope ["a", "b"] s t) ∧
      (b.load "x" gathering.toDefinition s = (.ok b', t) ∧
        ∃ r, Rule.ofDefinition b.scope gathering.toDefinition = .ok r ∧
          Primed b.scope r.pathTexts s t) ∧
      b.loadText "x" gatheringText s = (.ok b', t) ∧
        ∃ d r, Definition.ofText gatheringText = some d ∧ Rule.ofDefinition b.scope d = .ok r ∧
          Primed b.scope r.pathTexts s t := by
  intro s b
  have hs : s.Unbounded b.scope := ⟨Nat.zero_lt_one, rfl⟩
  have hsound : s.Sound := fun id => (Session.reached_empty.openScope none "en-US").sound id
  have ha : Path.compile "a" = .ok ⟨[.field "a"]⟩ := by cbv
  have hb : Path.compile "b" = .ok ⟨[.field "b"]⟩ := by cbv
  have hleft : Operand.audit
      ⟨.path "a" true, [⟨.collect "b", false⟩, ⟨.get "c", false⟩]⟩ = .ok () := by
    rw [Operand.audit, Operand.auditOrigin, ha, Pipeline.audit, List.mapM_cons, Step.ready,
      Action.tool, hb]
    rfl
  have haudit : (gathering.withScope b.scope).audit = .ok () := by
    rw [gathering, Rule.of, Rule.withScope, Rule.withScopeBelow, Rule.audit, Rule.auditTest,
      Rule.auditComparison]
    change (Operand.audit _ >>= fun _ => _) = _
    rw [hleft]
    rfl
  have hcold : ∀ n ∈ (gathering.withScope b.scope).nodes, n.memo = none :=
    fun n hn => (Rule.mem_nodes_withScope _ _ n hn).2
  have hsettles := Rule.compile_settles hsound (Rule.keeps_cold hcold) false
  rw [haudit] at hsettles
  rcases hrun : (gathering.withScope b.scope).compile false s with ⟨⟨f | c, r⟩, t⟩ <;>
    rw [hrun] at hsettles
  · cases hsettles
  have hload : b.load "x" gathering.toDefinition s =
      (.ok { b with rules := Members.put "x" r b.rules }, t) := by
    rw [load_apply, Rule.ofDefinition_toDefinition]
    simp only [hrun]
  have hrule := hload
  rw [← loadRule_eq] at hrule
  have hread : Definition.ofText gatheringText = some gathering.toDefinition := by cbv
  have htext : b.loadText "x" gatheringText s =
      (.ok { b with rules := Members.put "x" r b.rules }, t) := by
    rw [loadText, hread]
    exact hload
  obtain ⟨hrules, hdefinitions, htexts⟩ := load_primes hs "x"
  exact ⟨hs, _, t, ⟨hrule, hrules gathering hrule⟩, ⟨hload, hdefinitions _ hload⟩,
    htext, htexts _ htext⟩

end RuleBook

end Verdict
