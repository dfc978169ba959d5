import Verdict.Proofs.Operand.Usable
import Verdict.Proofs.Rule.Evaluation

/-!
# Usable rules

Which trees compile.  What every node of a tree has to be like is said of each node by itself; a
tree in which nothing is kept yet compiles exactly if all of its nodes are like that, whatever the
caches of its scopes hold.
-/

namespace Verdict

/-- The operators of comparisons.  Dates may be compared by any operator. -/
def Comparand.Admits : Comparand → Operator → Prop
  | .values, op => op.isLogical = false
  | .dates, _ => True
  | .times, op => op ∈ [.equal, .notEqual, .less, .greater, .between, .notBetween, .includes,
      .notIncludes]

theorem Comparand.admits_times_iff (op : Operator) :
    Comparand.times.Admits op ↔ op.isTemporalExtent = true ∨ op.isTemporal = true := by
  rw [Admits]
  cases op <;> decide

namespace Rule

structure UsableComparison (op : Operator) (as : Comparand) (left right : Option Operand) :
    Prop where
  operator : as.Admits op
  leftUsable : ∃ l, left = some l ∧ l.Usable
  rightGiven : op.requiresRight = true → right ≠ none
  rightUsable : Operand.UsableBound right
  /-- A pattern that stands in the rule itself is looked at. -/
  pattern : as = .values → op = .matching → ∀ p, right = some (.literal (.str p)) →
    Pattern.IsValid (Pattern.stripDelimiters p)

/-- The test of a node, taken by itself, can be made ready.  Without operands there is nothing to
compare, by whatever operator. -/
def UsableTest (op : Operator) : Test Rule → Prop
  | .compare as left right => left = none ∧ right = none ∨ UsableComparison op as left right
  | .compound cs => cs ≠ [] ∧ op.isLogical = true
  | .iterate left cs => cs ≠ [] ∧ op.isLogical = true ∧ ∃ l, left = some l ∧ l.Usable
  | .presence left => Operand.UsableBound left

/-- A node that, taken by itself, can be made ready. -/
structure Usable (n : Rule) : Prop where
  locals : ∀ l ∈ n.locals, l.2.Usable
  test : UsableTest n.operator n.test

/-! ## Nodes -/

theorem literalPattern?_eq_some_iff {right : Option Operand} {p : String} :
    literalPattern? right = some p ↔ right = some (.literal (.str p)) := by
  unfold literalPattern?
  split
  · simp [Operand.literal, Operand.of]
  · rename_i hother
    exact ⟨nofun, fun h => (hother p h).elim⟩

theorem auditPattern_eq_ok_iff (op : Operator) (right : Option Operand) :
    auditPattern op right = .ok () ↔ (op = .matching → ∀ p, right = some (.literal (.str p)) →
      Pattern.IsValid (Pattern.stripDelimiters p)) := by
  simp only [← literalPattern?_eq_some_iff, auditPattern]
  split
  · rename_i p hp
    rw [mapError_eq_ok_iff, forget_eq_ok_iff, Pattern.buildDelimited, Pattern.build_isOk_iff]
    simp [hp]
  · rename_i hother
    exact ⟨fun _ hop p hp => (hother p hop hp).elim, fun _ => rfl⟩

theorem auditSides_eq_ok_iff (kind : Kind) (op : Operator) (left right : Option Operand) :
    auditSides kind op left right = .ok () ↔ (∃ l, left = some l ∧ l.Usable) ∧
      (op.requiresRight = true → right ≠ none) ∧ Operand.UsableBound right := by
  rw [auditSides]
  cases left with
  | none => exact iff_of_false (fun h => by cases h) (by simp)
  | some l =>
    have hsides : (do l.audit; Operand.auditBound right) = .ok () ↔
        l.Usable ∧ Operand.UsableBound right := by
      rw [andThen_eq_ok_iff, Operand.audit_eq_ok_iff, Operand.auditBound_eq_ok_iff]
    simp only [Option.some.injEq, exists_eq_left']
    cases op.requiresRight with
    | false => exact hsides.trans ⟨fun h => ⟨h.1, by simp, h.2⟩, fun h => ⟨h.1, h.2.2⟩⟩
    | true =>
      cases right with
      | none => exact iff_of_false (fun h => by cases h) fun h => h.2.1 rfl rfl
      | some o => exact hsides.trans ⟨fun h => ⟨h.1, by simp, h.2⟩, fun h => ⟨h.1, h.2.2⟩⟩

theorem auditComparison_eq_ok_iff (op : Operator) (as : Comparand) (left right : Option Operand) :
    auditComparison op as left right = .ok () ↔
      left = none ∧ right = none ∨ UsableComparison op as left right := by
  rw [auditComparison]
  by_cases hnone : left = none ∧ right = none
  · obtain ⟨rfl, rfl⟩ := hnone
    exact ⟨fun _ => .inl ⟨rfl, rfl⟩, fun _ => rfl⟩
  · have hsome : ¬ (left.isNone && right.isNone) = true := by
      simpa using hnone
    have hparts : UsableComparison op as left right ↔ as.Admits op ∧
        (as = .values → auditPattern op right = .ok ()) ∧
          auditSides as.kind op left right = .ok () := by
      rw [auditPattern_eq_ok_iff, auditSides_eq_ok_iff]
      exact ⟨fun ⟨hop, hl, hr, hu, hp⟩ => ⟨hop, hp, hl, hr, hu⟩,
        fun ⟨hop, hp, hl, hr, hu⟩ => ⟨hop, hl, hr, hu, hp⟩⟩
    rw [if_neg hsome, or_iff_right hnone, hparts]
    cases as with
    | values =>
      rw [Comparand.Admits]
      cases op.isLogical with
      | true => exact ⟨nofun, nofun⟩
      | false =>
        refine (andThen_eq_ok_iff (x := auditPattern op right)).trans ?_
        exact ⟨fun h => ⟨rfl, fun _ => h.1, h.2⟩, fun h => ⟨h.2.1 rfl, h.2.2⟩⟩
    | dates => exact ⟨fun h => ⟨trivial, nofun, h⟩, fun h => h.2.2⟩
    | times =>
      rw [Comparand.admits_times_iff]
      cases op.isTemporalExtent <;> cases op.isTemporal
      · exact ⟨nofun, fun h => by simp at h⟩
      all_goals exact ⟨fun h => ⟨by simp, nofun, h⟩, fun h => h.2.2⟩

theorem checkGroup_eq_ok_iff {kind : Kind} {op : Operator} {cs : List Rule}
    {empty comparison : Reason} :
    checkGroup kind op cs empty comparison = .ok () ↔ cs ≠ [] ∧ op.isLogical = true := by
  rw [checkGroup]
  cases cs <;> cases op.isLogical <;> simp

theorem auditCollection_eq_ok_iff (op : Operator) (left : Option Operand) (cs : List Rule) :
    auditCollection op left cs = .ok () ↔
      cs ≠ [] ∧ op.isLogical = true ∧ ∃ l, left = some l ∧ l.Usable := by
  have hleft : (do let l ← required .iterate op .leftMissing left; l.audit) = .ok () ↔
      ∃ l, left = some l ∧ l.Usable := by
    cases left with
    | none => exact ⟨nofun, nofun⟩
    | some l =>
      simp only [Option.some.injEq, exists_eq_left']
      exact l.audit_eq_ok_iff
  rw [auditCollection, andThen_eq_ok_iff, checkGroup_eq_ok_iff, and_assoc, hleft]

theorem auditVariables_eq_ok_iff (locals : Members Operand) :
    auditVariables locals = .ok () ↔ ∀ l ∈ locals, l.2.Usable := by
  induction locals with
  | nil => exact ⟨fun _ => nofun, fun _ => rfl⟩
  | cons l rest ih =>
    rw [auditVariables, andThen_eq_ok_iff, Operand.audit_eq_ok_iff, ih, List.forall_mem_cons]

/-! ## Trees -/

mutual
theorem audit_eq_ok_iff : (r : Rule) → (r.audit = .ok () ↔ ∀ n ∈ r.nodes, n.Usable)
  | ⟨test, op, dependencies, locals, description, scope, memo⟩ => by
    rw [audit, nodes, List.forall_mem_cons, List.forall_mem_append, andThen_eq_ok_iff,
      andThen_eq_ok_iff, auditVariables_eq_ok_iff, auditTest_eq_ok_iff op test,
      auditAll_eq_ok_iff dependencies]
    exact ⟨fun ⟨hl, hd, ht, hb⟩ => ⟨⟨hl, ht⟩, hb, hd⟩, fun ⟨⟨hl, ht⟩, hb, hd⟩ => ⟨hl, hd, ht, hb⟩⟩

theorem auditTest_eq_ok_iff (op : Operator) : (test : Test Rule) →
    (auditTest op test = .ok () ↔ UsableTest op test ∧ ∀ n ∈ nodesBelow test, n.Usable)
  | .compare as left right => by
    rw [auditTest, auditComparison_eq_ok_iff, UsableTest]
    exact ⟨fun h => ⟨h, nofun⟩, And.left⟩
  | .compound cs => by
    rw [auditTest, andThen_eq_ok_iff, checkGroup_eq_ok_iff, auditAll_eq_ok_iff cs]
    rfl
  | .iterate left cs => by
    rw [auditTest, andThen_eq_ok_iff, auditCollection_eq_ok_iff, auditAll_eq_ok_iff cs]
    rfl
  | .presence left => by
    rw [auditTest, Operand.auditBound_eq_ok_iff]
    exact ⟨fun h => ⟨h, nofun⟩, And.left⟩

theorem auditAll_eq_ok_iff : (rs : List Rule) →
    (auditAll rs = .ok () ↔ ∀ n ∈ nodesAll rs, n.Usable)
  | [] => ⟨fun _ => nofun, fun _ => rfl⟩
  | r :: rest => by
    rw [auditAll, andThen_eq_ok_iff, audit_eq_ok_iff r, auditAll_eq_ok_iff rest, nodesAll,
      List.forall_mem_append]
end

/-- In a session with any caches, a tree that keeps no checks compiles exactly if all of its nodes
are usable. -/
theorem compile_isOk_iff {r : Rule} {s : Session} (hs : s.Reached)
    (hcold : ∀ n ∈ r.nodes, n.memo = none) :
    (∃ c, (r.compile false s).1.1 = .ok c) ↔ ∀ n ∈ r.nodes, n.Usable := by
  rw [← audit_eq_ok_iff]
  have hsettles := compile_settles hs.sound (keeps_cold hcold) false
  cases hcompile : (r.compile false s).1.1 with
  | ok c =>
    rw [hcompile] at hsettles
    exact ⟨fun _ => hsettles.1, fun _ => ⟨c, rfl⟩⟩
  | error f =>
    rw [hcompile, Work.Settles] at hsettles
    rw [hsettles]
    exact iff_of_false (by simp) (by simp)

theorem usable_simple (scope : ScopeId) (op : Operator) (value : Json) (hop : op.isLogical = false)
    (hvalue : ∀ p, value ≠ .str p) : (simple scope "age" op value).Usable where
  locals := nofun
  test := .inr
    { operator := hop
      leftUsable := ⟨_, rfl, exists_of_isOk (by decide +kernel), nofun⟩
      rightGiven := nofun
      rightUsable := ⟨trivial, nofun⟩
      pattern := fun _ _ p hp => by
        cases hp
        exact absurd rfl (hvalue p) }

/-- A group of a usable rule compiles by a logical operator, even without room in the caches, and
does not compile by another one. -/
theorem compile_isOk_iff_grouped :
    let group := fun op => of ⟨0⟩ (.compound [simple ⟨0⟩ "age" .equal (.ofInt 3)]) op
    let s := (({} : Session).openScope (.bounded (some 0) "de")).2
    s.Reached ∧ (∀ n ∈ (group .all).nodes, n.memo = none) ∧
      (∀ n ∈ (group .equal).nodes, n.memo = none) ∧
      (∃ c, ((group .all).compile false s).1.1 = .ok c) ∧
        ¬ ∃ c, ((group .equal).compile false s).1.1 = .ok c := by
  intro group s
  have hs : s.Reached := Session.reached_empty.openScope (some 0) "de"
  have hnodes : ∀ op, (group op).nodes = [group op, simple ⟨0⟩ "age" .equal (.ofInt 3)] :=
    fun _ => rfl
  have hcold : ∀ op, ∀ n ∈ (group op).nodes, n.memo = none := by
    intro op
    rw [hnodes, List.forall_mem_cons, List.forall_mem_singleton]
    exact ⟨rfl, rfl⟩
  refine ⟨hs, hcold .all, hcold .equal, (compile_isOk_iff hs (hcold .all)).mpr ?_, ?_⟩
  · rw [hnodes, List.forall_mem_cons, List.forall_mem_singleton]
    exact ⟨⟨nofun, nofun, rfl⟩, usable_simple ⟨0⟩ .equal (.ofInt 3) rfl nofun⟩
  · rw [compile_isOk_iff hs (hcold .equal), hnodes, List.forall_mem_cons, List.forall_mem_singleton]
    exact fun h => nomatch h.1.test.2

end Rule

end Verdict
