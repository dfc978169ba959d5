import Verdict.Proofs.Rule.Reliance
import Verdict.Proofs.Rule.Usable

/-!
# Faults of evaluation

The one fault that evaluating a usable tree can come to: where a node matches a value against
another one, the other one spells no pattern.  Everything else that could fail has been looked at
when the tree was compiled.
-/

namespace Verdict

theorem Operator.combine_isOk {op : Operator} (hop : op.isLogical = true) (results : List Bool) :
    ∃ b, op.combine results = .ok b := by
  cases op <;> first | exact ⟨_, rfl⟩ | cases hop

/-- Comparing by an operator that compares fails only where a pattern is misspelt. -/
theorem Operator.compare_eq_error {op : Operator} {a b : Json} {f : Fault}
    (hop : op.isLogical = false) (h : op.compare a b = .error f) :
    op = .matching ∧ ¬ Pattern.IsValid (Pattern.stripDelimiters b.form) ∧
      f = .invalidPattern (Pattern.stripDelimiters b.form) := by
  cases op with
  | matching =>
    by_cases hvalid : Pattern.IsValid (Pattern.stripDelimiters b.form)
    · obtain ⟨p, hp⟩ := Pattern.build_isOk_iff.mpr hvalid
      rw [compare, Pattern.buildDelimited, hp] at h
      cases h
    · rw [compare, Pattern.buildDelimited, Pattern.build_of_invalid hvalid] at h
      cases h
      exact ⟨rfl, hvalid, rfl⟩
  | all | notAll | any | none => cases hop
  | _ => cases h

namespace Rule

section Tested

variable (tongue : ScopeId → String) (now : Instant)

/-! ## Where evaluation leads -/

/-- A rule is tested in an environment: that of its variables, in which its dependencies hold. -/
structure Opens (r : Rule) (record : Json) (env e : Environment) : Prop where
  environment : extend r.kind (tongue r.scope) now record env r.locals = .ok e
  passed : ∃ traces, interpretAll tongue now r.dependencies record e = .ok traces ∧
    traces.all (·.result) = true

/-- Evaluating a rule on a record in an environment tests a node of it on a record in an
environment. -/
inductive Tests : Rule → Json → Environment → Rule → Json → Environment → Prop
  | here {r : Rule} {record : Json} {env e : Environment} (h : Opens tongue now r record env e) :
      Tests r record env r record e
  | dependency {r d n : Rule} {record x : Json} {env e y : Environment}
      (he : extend r.kind (tongue r.scope) now record env r.locals = .ok e)
      (hd : d ∈ r.dependencies) (h : Tests d record e n x y) : Tests r record env n x y
  | member {r c n : Rule} {cs : List Rule} {record x : Json} {env e y : Environment}
      (hr : Opens tongue now r record env e) (htest : r.test = .compound cs) (hc : c ∈ cs)
      (h : Tests c record e n x y) : Tests r record env n x y
  | element {r c n : Rule} {left : Option Operand} {cs : List Rule} {v : Option Json}
      {record target x : Json} {env e y : Environment} (hr : Opens tongue now r record env e)
      (htest : r.test = .iterate left cs)
      (hleft : Operand.findBound .iterate (tongue r.scope) now record e left = .ok v)
      (htarget : target ∈ (v.getD .null).elements) (hc : c ∈ cs) (h : Tests c target e n x y) :
      Tests r record env n x y

/-- A node matches a value against one that is no pattern, and neither is null. -/
inductive Misspells (n : Rule) (record : Json) (env : Environment) : Operand → String → Prop
  | mk {left : Option Operand} {right : Operand} {a b : Json}
      (htest : n.test = .compare .values left (some right)) (hop : n.operator = .matching)
      (hleft : Operand.findBound .primitive (tongue n.scope) now record env left = .ok (some a))
      (hright : right.find .primitive (tongue n.scope) now record env = .ok (some b))
      (ha : a.isNull = false) (hb : b.isNull = false)
      (hpattern : ¬ Pattern.IsValid (Pattern.stripDelimiters b.form)) :
      Misspells n record env right (Pattern.stripDelimiters b.form)

def Stumbles (r : Rule) (record : Json) (env : Environment) (f : Fault) : Prop :=
  ∃ n ∈ r.nodes, ∃ x e right pattern, Tests tongue now r record env n x e ∧
    Misspells tongue now n x e right pattern ∧
      f = .unresolved right.toJson.text (.invalidPattern pattern)

end Tested

variable {tongue : ScopeId → String} {now : Instant} {r : Rule} {record : Json}
  {env e : Environment} {f : Fault}

theorem Stumbles.up {c : Rule} {x : Json} (h : Stumbles tongue now c x e f) (hc : c.nodes ⊆ r.nodes)
    (htests : ∀ {n y z}, Tests tongue now c x e n y z → Tests tongue now r record env n y z) :
    Stumbles tongue now r record env f := by
  obtain ⟨n, hn, y, z, right, pattern, ht, hm, hf⟩ := h
  exact ⟨n, hc hn, y, z, right, pattern, htests ht, hm, hf⟩

theorem conclude_ne_error {kind : Kind} {op : Operator} {traces : List Trace}
    (hop : op.isLogical = true) : conclude kind op e traces ≠ .error f := by
  intro h
  obtain ⟨b, hb⟩ := Operator.combine_isOk hop (traces.map (·.result))
  rw [conclude, hb] at h
  cases h

theorem extend_isOk {kind : Kind} {locale : String} {locals : Members Operand}
    (h : ∀ l ∈ locals, l.2.Usable) :
    ∃ e, extend kind locale now record env locals = .ok e := by
  cases hextend : extend kind locale now record env locals with
  | ok e => exact ⟨e, rfl⟩
  | error f =>
    rw [extend] at hextend
    split at hextend
    · cases hextend
    · rcases bind_eq_error hextend with hmap | ⟨found, -, hfound⟩
      · obtain ⟨l, hl, hfind⟩ := mapM_eq_error hmap
        obtain ⟨v, hv⟩ := l.2.find_isOk kind locale now record env (h l hl)
        rw [hv] at hfind
        cases hfind
      · cases hfound

theorem testFound_eq_error {left : Operand} {right : Option Operand} {u v : Option Json}
    (htest : r.test = .compare .values (some left) right)
    (hr : UsableComparison r.operator .values (some left) right)
    (hu : left.find .primitive (tongue r.scope) now record e = .ok u)
    (hv : Operand.findBound .primitive (tongue r.scope) now record e right = .ok v)
    (h : testFound r.operator (rightText right) u v = .error f) :
    ∃ right pattern, Misspells tongue now r record e right pattern ∧
      f = .unresolved right.toJson.text (.invalidPattern pattern) := by
  rcases u with _ | a
  · cases h
  rcases v with _ | b
  · cases h
  -- a value comes from a right operand only
  cases right with
  | none => cases hv
  | some right =>
    rw [testFound] at h
    split at h
    · cases h
    · rename_i hnull
      rw [Bool.or_eq_true, not_or, Bool.not_eq_true, Bool.not_eq_true] at hnull
      rcases hcompare : r.operator.compare a b with f' | result <;> rw [hcompare] at h
      · obtain ⟨hop, hpattern, rfl⟩ := Operator.compare_eq_error hr.operator hcompare
        cases h
        exact ⟨right, _, .mk htest hop hu hv hnull.1 hnull.2 hpattern, rfl⟩
      · cases h

/-- A comparison that can be made ready fails only where a pattern is misspelt. -/
theorem interpretComparison_eq_error {as : Comparand} {left right : Option Operand}
    (htest : r.test = .compare as left right) (hr : r.Usable)
    (h : interpretComparison (tongue r.scope) now r.operator as left right record e = .error f) :
    ∃ right pattern, Misspells tongue now r record e right pattern ∧
      f = .unresolved right.toJson.text (.invalidPattern pattern) := by
  have hself := hr.test
  rw [htest] at hself
  rcases hself with ⟨rfl, rfl⟩ | hself
  · cases h
  · obtain ⟨l, rfl, hl⟩ := hself.leftUsable
    obtain ⟨u, hu⟩ := l.find_isOk as.kind (tongue r.scope) now record e hl
    obtain ⟨v, hv⟩ :=
      Operand.findBound_isOk as.kind (tongue r.scope) now record e right hself.rightUsable
    rw [interpretComparison, if_neg (by simp)] at h
    rcases bind_eq_error h with hu' | ⟨u', hu', h⟩ <;> cases hu.symm.trans hu'
    rcases bind_eq_error h with hv' | ⟨v', hv', h⟩ <;> cases hv.symm.trans hv'
    cases as with
    | dates => cases h
    | times => cases h
    | values =>
      rcases bind_eq_error h with hfound | ⟨result, -, h⟩
      · exact testFound_eq_error htest hself hu hv hfound
      · cases h

mutual
/-- Evaluating a usable tree fails only where a pattern is misspelt. -/
theorem interpret_eq_error : (r : Rule) → (∀ n ∈ r.nodes, n.Usable) →
    ∀ {record : Json} {env : Environment}, r.interpret tongue now record env = .error f →
      Stumbles tongue now r record env f
  | ⟨test, op, dependencies, locals, description, scope, memo⟩, husable, record, env, h => by
    have hself := husable _ (mem_nodes_self _)
    rw [nodes, List.forall_mem_cons, List.forall_mem_append] at husable
    obtain ⟨-, hbelow, hdepend⟩ := husable
    have hextend : ∃ e, extend test.kind (tongue scope) now record env locals = .ok e :=
      extend_isOk hself.locals
    obtain ⟨e, he⟩ := hextend
    cases hempty : dependencies.isEmpty with
    | true =>
      cases List.isEmpty_iff.mp hempty
      rw [interpret_ungated rfl] at h
      rcases bind_eq_error h with he' | ⟨e', he', htest⟩ <;> cases he.symm.trans he'
      exact interpretTest_eq_error test hbelow rfl hself ⟨he, [], rfl, rfl⟩ htest
    | false =>
      rw [interpret_gated hempty] at h
      rcases bind_eq_error h with he' | ⟨e', he', h⟩ <;> cases he.symm.trans he'
      rcases bind_eq_error h with hall | ⟨traces, hall, htest⟩
      · obtain ⟨d, hd, hs⟩ := interpretAll_eq_error dependencies hdepend hall
        refine hs.up (fun n hn => ?_) (.dependency he hd)
        rw [nodes, List.mem_cons, List.mem_append]
        exact .inr (.inr (mem_nodesAll.mpr ⟨d, hd, hn⟩))
      · cases hpassed : traces.all (·.result) with
        | true =>
          rw [hpassed, if_pos rfl, map_eq_error_iff] at htest
          exact interpretTest_eq_error test hbelow rfl hself ⟨he, traces, hall, hpassed⟩ htest
        | false =>
          rw [hpassed] at htest
          cases htest

theorem interpretTest_eq_error : (test : Test Rule) → (∀ n ∈ nodesBelow test, n.Usable) →
    ∀ {r : Rule} {record : Json} {env e : Environment}, r.test = test → r.Usable →
      Opens tongue now r record env e →
      interpretTest tongue now r.operator r.scope test record e = .error f →
      Stumbles tongue now r record env f
  | .compare as left right, _, r, record, env, e, htest, hr, hopens, h => by
    obtain ⟨right, pattern, hm, hf⟩ := interpretComparison_eq_error htest hr h
    exact ⟨r, mem_nodes_self r, record, e, right, pattern, .here hopens, hm, hf⟩
  | .presence left, _, r, record, env, e, htest, hr, hopens, h => by
    have hleft : Operand.UsableBound left := by
      have := hr.test
      rwa [htest] at this
    obtain ⟨v, hv⟩ := Operand.findBound_isOk .presence (tongue r.scope) now record e left hleft
    rw [interpretTest, hv] at h
    cases left <;> cases h
  | .compound cs, hbelow, r, record, env, e, htest, hr, hopens, h => by
    have hlogical : r.operator.isLogical = true := by
      have hself := hr.test
      rw [htest] at hself
      exact hself.2
    rw [interpretTest] at h
    rcases bind_eq_error h with h | ⟨traces, -, h⟩
    · obtain ⟨c, hc, hs⟩ := interpretAll_eq_error cs hbelow h
      refine hs.up (fun n hn => ?_) (.member hopens htest hc)
      rw [nodes_eq, htest, List.mem_cons, List.mem_append]
      exact .inr (.inl (mem_nodesAll.mpr ⟨c, hc, hn⟩))
    · exact absurd h (conclude_ne_error hlogical)
  | .iterate left cs, hbelow, r, record, env, e, htest, hr, hopens, h => by
    have hself := hr.test
    rw [htest] at hself
    obtain ⟨-, hlogical, l, rfl, hl⟩ := hself
    obtain ⟨v, hv⟩ := l.find_isOk .iterate (tongue r.scope) now record e hl
    rw [interpretTest] at h
    rcases bind_eq_error h with hv' | ⟨v', hv', h⟩ <;> cases hv.symm.trans hv'
    rcases bind_eq_error h with h | ⟨traces, -, h⟩
    · obtain ⟨target, htarget, h⟩ := mapM_eq_error h
      rcases bind_eq_error h with h | ⟨results, -, h⟩
      · obtain ⟨c, hc, hs⟩ := interpretAll_eq_error cs hbelow h
        refine hs.up (fun n hn => ?_) (.element hopens htest hv htarget hc)
        rw [nodes_eq, htest, List.mem_cons, List.mem_append]
        exact .inr (.inl (mem_nodesAll.mpr ⟨c, hc, hn⟩))
      · cases h
    · rcases bind_eq_error h with h | ⟨trace, -, h⟩
      · exact absurd h (conclude_ne_error hlogical)
      · cases h

theorem interpretAll_eq_error : (rs : List Rule) → (∀ n ∈ nodesAll rs, n.Usable) →
    ∀ {record : Json} {env : Environment}, interpretAll tongue now rs record env = .error f →
      ∃ r ∈ rs, Stumbles tongue now r record env f
  | [], _, _, _, h => nomatch h
  | r :: rest, husable, record, env, h => by
    rw [nodesAll, List.forall_mem_append] at husable
    rw [interpretAll] at h
    rcases bind_eq_error h with hr | ⟨trace, -, h⟩
    · exact ⟨r, List.mem_cons_self, interpret_eq_error r husable.1 hr⟩
    · rcases bind_eq_error h with hrest | ⟨traces, -, h⟩
      · obtain ⟨r', hr', hs⟩ := interpretAll_eq_error rest husable.2 hrest
        exact ⟨r', List.mem_cons_of_mem r hr', hs⟩
      · cases h
end

/-! ## Runs of checks -/

/-- A node that matches values against the pattern of its right operand. -/
def MatchesAgainst (n : Rule) (right : Operand) : Prop :=
  n.kind = .primitive ∧ n.operator = .matching ∧ n.right = some right

/-- All patterns of a tree stand in the tree itself. -/
def HoldsPatterns (r : Rule) : Prop :=
  ∀ n ∈ r.nodes, ∀ right, n.MatchesAgainst right → ∃ p, right = .literal (.str p)

theorem Misspells.matchesAgainst {n : Rule} {right : Operand} {pattern : String}
    (h : Misspells tongue now n record e right pattern) : n.MatchesAgainst right := by
  obtain ⟨htest, hop, -⟩ := h
  rw [MatchesAgainst, kind, Rule.right, htest]
  exact ⟨rfl, hop, rfl⟩

theorem matchesAgainst_bare (move : ScopeId → ScopeId) {n : Rule} {right : Operand} :
    (n.bare move).MatchesAgainst right ↔ n.MatchesAgainst right := by
  obtain ⟨test, op, dependencies, locals, description, scope, memo⟩ := n
  simp only [MatchesAgainst, kind, Rule.right, bare, kind_bareBelow, right_bareBelow]

/-- Trees that are the same but for their scopes match against the same operands. -/
theorem exists_matchesAgainst {t n : Rule} {right : Operand} (h : t.essence = r.essence)
    (hn : n ∈ t.nodes) (hm : n.MatchesAgainst right) : ∃ m ∈ r.nodes, m.MatchesAgainst right := by
  have hmem : n.essence ∈ r.essence.nodes := by
    rw [← h, essence, nodes_bare]
    exact List.mem_map_of_mem hn
  rw [essence, nodes_bare] at hmem
  obtain ⟨m, hmr, hmn⟩ := List.mem_map.mp hmem
  refine ⟨m, hmr, ?_⟩
  rw [← matchesAgainst_bare fun _ => ⟨0⟩, hmn]
  exact (matchesAgainst_bare _).mpr hm

theorem HoldsPatterns.not_stumbles (h : r.HoldsPatterns) (husable : ∀ n ∈ r.nodes, n.Usable) :
    ¬ Stumbles tongue now r record env f := by
  rintro ⟨n, hn, x, y, right, pattern, -, hm, -⟩
  obtain ⟨p, rfl⟩ := h n hn right hm.matchesAgainst
  obtain ⟨htest, hop, -, hright, -, -, hpattern⟩ := hm
  cases hright
  have hself := (husable n hn).test
  rw [htest] at hself
  rcases hself with ⟨-, hnone⟩ | hself
  · cases hnone
  · exact hpattern (hself.pattern rfl hop p rfl)

/-- A check of a compiled rule gives a trace, or the fault of a pattern that was found in the
record, in the environment or by steps.  So it always gives a trace if all patterns stand in the
tree. -/
theorem run_ok_or_stumbles {r : Rule} {s : Session} {force : Bool} {c : Check}
    (hr : Reliable s.tongue r) (hs : s.Reached) (hc : (r.compile force s).1.1 = .ok c) :
    ∃ t : Rule, t.essence = r.essence ∧ (Warmed s.tongue r → t = r) ∧
      ∀ (u : Session) (now : Instant) (record : Json) (env : Environment), u.Reached →
        ((∃ trace, (c.run now record env u).1 = .ok trace) ∨
          ∃ n ∈ r.nodes, ∃ right pattern, n.MatchesAgainst right ∧
            (c.run now record env u).1 =
                .error (.unresolved right.toJson.text (.invalidPattern pattern)) ∧
              Stumbles s.tongue now t record env
                (.unresolved right.toJson.text (.invalidPattern pattern))) ∧
        (r.HoldsPatterns → ∃ trace, (c.run now record env u).1 = .ok trace) := by
  obtain ⟨haudit, t, hessence, hsame, hsays⟩ := hr.says_like hs.sound hc
  have husable : ∀ n ∈ t.nodes, n.Usable :=
    (audit_eq_ok_iff t).mp ((audit_eq_of_bare _ hessence).trans haudit)
  refine ⟨t, hessence, hsame, fun u now record env hu => ?_⟩
  obtain ⟨v, hrun, -⟩ := hsays now record env u hu.sound
  rw [hrun]
  cases hinterpret : t.interpret s.tongue now record env with
  | ok trace => exact ⟨.inl ⟨trace, rfl⟩, fun _ => ⟨trace, rfl⟩⟩
  | error f =>
    have hstumbles := interpret_eq_error t husable hinterpret
    refine ⟨.inr ?_, fun hpatterns => absurd hstumbles (HoldsPatterns.not_stumbles ?_ husable)⟩
    · obtain ⟨n, hn, x, y, right, pattern, htests, hm, rfl⟩ := hstumbles
      obtain ⟨m, hmr, hmatches⟩ := exists_matchesAgainst hessence hn hm.matchesAgainst
      exact ⟨m, hmr, right, pattern, hmatches, rfl, n, hn, x, y, right, pattern, htests, hm, rfl⟩
    · intro n hn right hm
      obtain ⟨m, hmr, hmatches⟩ := exists_matchesAgainst hessence hn hm
      exact hpatterns m hmr right hmatches

/-- A pattern from the environment may be found wanting in a run only. -/
theorem run_ok_or_stumbles_named :
    let right := Operand.of (.env "pattern")
    let r := of ⟨0⟩ (.compare .values (some (.path "name")) (some right)) .matching
    let s : Session := {}
    Reliable s.tongue r ∧ s.Reached ∧ ∃ c, (r.compile false s).1.1 = .ok c ∧
      ∀ (u : Session) (now : Instant) (record : Json) (env : Environment), u.Reached →
        (∃ trace, (c.run now record env u).1 = .ok trace) ∨ ∃ pattern,
          (c.run now record env u).1 =
            .error (.unresolved right.toJson.text (.invalidPattern pattern)) := by
  intro right r s
  have hr : Reliable s.tongue r := .warmed (.cold fun n hn => by rw [List.mem_singleton.mp hn])
  have hs : s.Reached := Session.reached_empty
  have hcompiles : ∃ c, (r.compile false s).1.1 = .ok c := exists_of_isOk (by decide +kernel)
  obtain ⟨c, hc⟩ := hcompiles
  refine ⟨hr, hs, c, hc, fun u now record env hu => ?_⟩
  obtain ⟨t, -, -, hrun⟩ := run_ok_or_stumbles hr hs hc
  refine (hrun u now record env hu).1.imp_right ?_
  rintro ⟨n, hn, right', pattern, hm, herror, -⟩
  cases List.mem_singleton.mp hn
  cases hm.2.2
  exact ⟨pattern, herror⟩

end Rule

end Verdict
