import Verdict.Proofs.Advance
import Verdict.Proofs.Rule.Way

/-!
# Where compiling comes

Compiling a tree compiles the rules below a node in turn, unless the check kept in the node counts
or a fault has come up before.  A node that compiling comes to is afterwards as if it had been
compiled by itself in the session of its turn; every other node stays as it is.
-/

namespace Verdict.Rule

/-! ## One node -/

/-- The check kept in a node was made with the digest that the node has now. -/
def UpToDate (r : Rule) : Prop :=
  ∃ c, r.memo = some ⟨r.digest, c⟩

theorem upToDate_iff {r : Rule} : r.UpToDate ↔ r.memo.any (·.digest == r.digest) = true := by
  rw [UpToDate]
  cases r.memo with
  | none => exact ⟨nofun, nofun⟩
  | some m =>
    rw [Option.any_some, beq_iff_eq]
    constructor
    · rintro ⟨c, h⟩
      cases h
      rfl
    · intro h
      exact ⟨m.check, by rw [← h]⟩

instance (r : Rule) : Decidable r.UpToDate :=
  decidable_of_iff _ upToDate_iff.symm

/-- Compiling makes a check anew. -/
def Builds (force : Bool) (r : Rule) : Prop :=
  force = true ∨ ¬r.UpToDate

instance (force : Bool) (r : Rule) : Decidable (r.Builds force) :=
  inferInstanceAs (Decidable (_ ∨ _))

theorem not_builds {r : Rule} {force : Bool} {c : Check} (hforce : force = false)
    (hmemo : r.memo = some ⟨r.digest, c⟩) : ¬r.Builds force := by
  rintro (hforced | hstale)
  · exact Bool.false_ne_true (hforce.symm.trans hforced)
  · exact hstale ⟨c, hmemo⟩

/-- What compiling a node does in a session: its result, the node and the session afterwards. -/
inductive Compiles (force : Bool) (r : Rule) (s : Session) :
    Except Fault Check → Rule → Session → Prop
  | found {c : Check} (hforce : force = false) (hmemo : r.memo = some ⟨r.digest, c⟩) :
      Compiles force r s (.ok c) r s
  | badLocals {f : Fault} {t : Session} (hbuilds : r.Builds force)
      (hlocals : compileVariables r.kind r.scope r.locals s = (.error f, t)) :
      Compiles force r s (.error f) r t
  | badDependency {getters : List (String × Getter)} {f : Fault} {ds : List Rule} {t u : Session}
      (hbuilds : r.Builds force)
      (hlocals : compileVariables r.kind r.scope r.locals s = (.ok getters, t))
      (hdepend : compileAll r.dependencies t = ((.error f, ds), u)) :
      Compiles force r s (.error f) { r with dependencies := ds } u
  | badTest {getters : List (String × Getter)} {checks : List Check} {f : Fault} {ds : List Rule}
      {test : Test Rule} {t u v : Session} (hbuilds : r.Builds force)
      (hlocals : compileVariables r.kind r.scope r.locals s = (.ok getters, t))
      (hdepend : compileAll r.dependencies t = ((.ok checks, ds), u))
      (htest : compileTest r.scope r.operator r.test u = ((.error f, test), v)) :
      Compiles force r s (.error f) { r with test, dependencies := ds } v
  | made {getters : List (String × Getter)} {checks : List Check} {main : Main} {ds : List Rule}
      {test : Test Rule} {t u v : Session} {c : Check} (hbuilds : r.Builds force)
      (hlocals : compileVariables r.kind r.scope r.locals s = (.ok getters, t))
      (hdepend : compileAll r.dependencies t = ((.ok checks, ds), u))
      (htest : compileTest r.scope r.operator r.test u = ((.ok main, test), v))
      (hc : c = ⟨v.fresh, test.kind, r.operator, getters, checks, main⟩) :
      Compiles force r s (.ok c)
        { r with test, dependencies := ds, memo := if force then r.memo else some ⟨r.digest, c⟩ }
        { v with fresh := v.fresh + 1 }

theorem compiles (force : Bool) (r : Rule) (s : Session) :
    Compiles force r s (r.compile force s).1.1 (r.compile force s).1.2 (r.compile force s).2 := by
  obtain ⟨test, op, dependencies, locals, description, scope, memo⟩ := r
  rw [compile]
  simp only []
  cases hkept : memo.filter fun m => !force && m.digest ==
      digest ⟨test, op, dependencies, locals, description, scope, memo⟩ with
  | some m =>
    obtain ⟨rfl, hm⟩ := Option.filter_eq_some_iff.mp hkept
    rw [Bool.and_eq_true, Bool.not_eq_true', beq_iff_eq] at hm
    exact .found hm.1 (congrArg some (congrArg (Memo.mk · m.check) hm.2))
  | none =>
    have hbuilds : Builds force ⟨test, op, dependencies, locals, description, scope, memo⟩ := by
      rw [Builds, upToDate_iff, or_iff_not_imp_left, Bool.not_eq_true]
      rintro rfl hany
      obtain ⟨m, rfl, hm⟩ := (Option.any_eq_true _ _).mp hany
      exact absurd (beq_iff_eq.mp hm) (by simpa using hkept)
    simp only [Work.state_bind_apply]
    rcases hlocals : compileVariables test.kind scope locals s with ⟨_ | getters, t⟩
    · exact .badLocals hbuilds hlocals
    simp only [Work.state_bind_apply]
    rcases hdepend : compileAll dependencies t with ⟨⟨_ | checks, ds⟩, u⟩
    · exact .badDependency hbuilds hlocals hdepend
    simp only [Work.state_bind_apply]
    rcases htest : compileTest scope op test u with ⟨⟨_ | main, test'⟩, v⟩
    · exact .badTest hbuilds hlocals hdepend htest
    · exact .made hbuilds hlocals hdepend htest rfl

/-! ## Rules in turn -/

/-- The session in which compiling rules in order comes to one of them. -/
def turn : List Rule → Nat → Session → Option Session
  | [], _, _ => none
  | _ :: _, 0, s => some s
  | r :: rest, i + 1, s =>
    match compile false r s with
    | ((.ok _, _), t) => turn rest i t
    | ((.error _, _), _) => none

def turnTest (scope : ScopeId) (op : Operator) : Test Rule → Nat → Session → Option Session
  | .compound cs, i, s =>
    match checkGroup .compound op cs .compoundEmpty .compoundOperator with
    | .ok _ => turn cs i s
    | .error _ => none
  | .iterate left cs, i, s =>
    match compileCollection scope op left cs s with
    | (.ok _, t) => turn cs i t
    | (.error _, _) => none
  | _, _, _ => none

def turnBelow (force : Bool) (r : Rule) (s : Session) (b : Branch) : Option Session :=
  if r.Builds force then
    match compileVariables r.kind r.scope r.locals s with
    | (.error _, _) => none
    | (.ok _, t) =>
      match b with
      | .dependency i => turn r.dependencies i t
      | .child i =>
        match compileAll r.dependencies t with
        | ((.error _, _), _) => none
        | ((.ok _, _), u) => turnTest r.scope r.operator r.test i u
  else none

/-- The session in which compiling a tree comes to the node that a way leads to. -/
def visit (force : Bool) (r : Rule) (s : Session) : List Branch → Option Session
  | [] => some s
  | b :: way => do
    let t ← turnBelow force r s b
    let c ← r.branch? b
    c.visit false t way

/-- A node that compiling comes to in some session, or does not come to. -/
def visited (force : Bool) (n : Rule) : Option Session → Rule
  | some t => (n.compile force t).1.2
  | none => n

section Turn

variable {rs : List Rule} {s t : Session} {n : Rule} {i : Nat}

theorem compileAll_cons (r : Rule) (rest : List Rule) (s : Session) :
    compileAll (r :: rest) s = match compile false r s with
      | ((.error f, r'), t) => ((.error f, r' :: rest), t)
      | ((.ok c, r'), t) => (((compileAll rest t).1.1.map (c :: ·),
          r' :: (compileAll rest t).1.2), (compileAll rest t).2) := by
  rw [compileAll, Work.state_bind_apply]
  rcases compile false r s with ⟨⟨_ | c, r'⟩, t⟩ <;> rfl

theorem getElem?_compileAll (rs : List Rule) (s : Session) (i : Nat) :
    (compileAll rs s).1.2[i]? = rs[i]?.map fun n => n.visited false (turn rs i s) := by
  induction rs generalizing s i with
  | nil => rfl
  | cons r rest ih =>
    rw [compileAll_cons]
    cases i with
    | zero =>
      rw [List.getElem?_cons_zero, Option.map_some, turn, visited]
      rcases compile false r s with ⟨⟨_ | c, r'⟩, t⟩ <;> rfl
    | succ i =>
      rw [List.getElem?_cons_succ, turn]
      rcases compile false r s with ⟨⟨_ | c, r'⟩, t⟩
      · exact Option.map_id'.symm
      · exact ih t i

theorem before_turn (h : turn rs i s = some t) (hn : rs[i]? = some n) :
    s.Before t ∧ (n.compile false t).2.Before (compileAll rs s).2 := by
  induction rs generalizing s i with
  | nil => cases h
  | cons r rest ih =>
    have hfirst := compile_advances false r s
    rw [compileAll_cons]
    cases i with
    | zero =>
      cases h
      cases hn
      refine ⟨.refl t, ?_⟩
      rcases compile false n t with ⟨⟨_ | c, r'⟩, u⟩
      · exact .refl u
      · exact compileAll_advances rest u
    | succ i =>
      rw [turn] at h
      rcases hrun : compile false r s with ⟨⟨_ | c, r'⟩, t'⟩ <;> rw [hrun] at h hfirst
      · cases h
      · obtain ⟨hbefore, hafter⟩ := ih h hn
        exact ⟨hfirst.trans hbefore, hafter⟩

/-- Without a fault every rule has its turn and is compiled without a fault. -/
theorem turn_of_ok {checks : List Check} (h : (compileAll rs s).1.1 = .ok checks)
    (hn : rs[i]? = some n) : ∃ t c, turn rs i s = some t ∧ (n.compile false t).1.1 = .ok c := by
  induction rs generalizing s i checks with
  | nil => cases hn
  | cons r rest ih =>
    rw [compileAll_cons] at h
    rcases hrun : compile false r s with ⟨⟨f | c, r'⟩, t⟩ <;> rw [hrun] at h
    · cases h
    · cases i with
      | zero =>
        cases hn
        exact ⟨s, c, rfl, by rw [hrun]⟩
      | succ i =>
        obtain ⟨rest', hrest, -⟩ := map_eq_ok h
        rw [turn, hrun]
        exact ih hrest hn

end Turn

section TurnTest

variable {scope : ScopeId} {op : Operator} {test : Test Rule} {s t : Session} {n : Rule} {i : Nat}

theorem children_compileTest (scope : ScopeId) (op : Operator) (test : Test Rule) (s : Session)
    (i : Nat) : (compileTest scope op test s).1.2.children[i]? =
      test.children[i]?.map fun n => n.visited false (turnTest scope op test i s) := by
  cases test with
  | compare as left right => rfl
  | presence left => rfl
  | compound cs =>
    rw [compileTest, turnTest]
    cases checkGroup .compound op cs .compoundEmpty .compoundOperator with
    | error f => exact Option.map_id'.symm
    | ok _ => exact getElem?_compileAll cs s i
  | iterate left cs =>
    rw [compileTest, turnTest, Work.state_bind_apply]
    rcases compileCollection scope op left cs s with ⟨_ | collection, t⟩
    · exact Option.map_id'.symm
    · exact getElem?_compileAll cs t i

theorem before_turnTest (h : turnTest scope op test i s = some t)
    (hn : test.children[i]? = some n) :
    s.Before t ∧ (n.compile false t).2.Before (compileTest scope op test s).2 := by
  cases test with
  | compare as left right => cases hn
  | presence left => cases hn
  | compound cs =>
    rw [turnTest] at h
    rw [compileTest]
    cases hgroup : checkGroup .compound op cs .compoundEmpty .compoundOperator <;>
      rw [hgroup] at h
    · cases h
    · exact before_turn h hn
  | iterate left cs =>
    have hfirst := compileCollection_advances scope op left cs s
    rw [turnTest] at h
    rw [compileTest, Work.state_bind_apply]
    rcases hrun : compileCollection scope op left cs s with ⟨_ | collection, u⟩ <;>
      rw [hrun] at h hfirst
    · cases h
    · obtain ⟨hbefore, hafter⟩ := before_turn h hn
      exact ⟨hfirst.trans hbefore, hafter⟩

theorem turnTest_of_ok {main : Main} (h : (compileTest scope op test s).1.1 = .ok main)
    (hn : test.children[i]? = some n) :
    ∃ t c, turnTest scope op test i s = some t ∧ (n.compile false t).1.1 = .ok c := by
  cases test with
  | compare as left right => cases hn
  | presence left => cases hn
  | compound cs =>
    rw [compileTest] at h
    rw [turnTest]
    cases hgroup : checkGroup .compound op cs .compoundEmpty .compoundOperator <;>
      rw [hgroup] at h
    · cases h
    · obtain ⟨checks, hchecks, -⟩ := map_eq_ok (x := (compileAll cs s).1.1) h
      exact turn_of_ok hchecks hn
  | iterate left cs =>
    rw [compileTest, Work.state_bind_apply] at h
    rw [turnTest]
    rcases hrun : compileCollection scope op left cs s with ⟨_ | collection, u⟩ <;> rw [hrun] at h
    · cases h
    · obtain ⟨checks, hchecks, -⟩ := map_eq_ok (x := (compileAll cs u).1.1) h
      exact turn_of_ok hchecks hn

end TurnTest

/-! ## The node and what is below it -/

section Compiles

variable {force : Bool} {r r' n : Rule} {s s' t u v : Session} {result : Except Fault Check}
  {main : Except Fault Main} {c : Check} {checks : List Check} {getters : List (String × Getter)}
  {ds : List Rule} {test : Test Rule} {b : Branch}

theorem before_of_parts (hlocals : compileVariables r.kind r.scope r.locals s = (.ok getters, t))
    (hdepend : compileAll r.dependencies t = ((.ok checks, ds), u))
    (htest : compileTest r.scope r.operator r.test u = ((main, test), v)) :
    s.Before t ∧ t.Before u ∧ u.Before v := by
  have hst := compileVariables_advances r.kind r.scope r.locals s
  have htu := compileAll_advances r.dependencies t
  have huv := compileTest_advances r.scope r.operator r.test u
  rw [hlocals] at hst
  rw [hdepend] at htu
  rw [htest] at huv
  exact ⟨hst, htu, huv⟩

theorem turnBelow_eq (hbuilds : r.Builds force)
    (hlocals : compileVariables r.kind r.scope r.locals s = (.ok getters, t))
    (hdepend : compileAll r.dependencies t = ((.ok checks, ds), u)) (b : Branch) :
    turnBelow force r s b = match b with
      | .dependency i => turn r.dependencies i t
      | .child i => turnTest r.scope r.operator r.test i u := by
  rw [turnBelow, if_pos hbuilds, hlocals]
  cases b with
  | child i => simp only [hdepend]
  | dependency i => rfl

theorem branch?_of_parts {memo : Option Memo} (hbuilds : r.Builds force)
    (hlocals : compileVariables r.kind r.scope r.locals s = (.ok getters, t))
    (hdepend : compileAll r.dependencies t = ((.ok checks, ds), u))
    (htest : compileTest r.scope r.operator r.test u = ((main, test), v)) (b : Branch) :
    branch? { r with test, dependencies := ds, memo } b =
      (r.branch? b).map fun n => n.visited false (turnBelow force r s b) := by
  rw [turnBelow_eq hbuilds hlocals hdepend]
  cases b with
  | child i =>
    have hchildren := children_compileTest r.scope r.operator r.test u i
    rw [htest] at hchildren
    exact hchildren
  | dependency i =>
    have hdependencies := getElem?_compileAll r.dependencies t i
    rw [hdepend] at hdependencies
    exact hdependencies

/-- The rules below a node after it was compiled. -/
theorem Compiles.branch? (h : Compiles force r s result r' s') (b : Branch) :
    r'.branch? b = (r.branch? b).map fun n => n.visited false (turnBelow force r s b) := by
  have hstay : ∀ o : Option Rule, o.map (fun n => n.visited false none) = o :=
    fun o => Option.map_id'
  cases h with
  | found hforce hmemo =>
    rw [turnBelow, if_neg (not_builds hforce hmemo), hstay]
  | badLocals hbuilds hlocals => rw [turnBelow, if_pos hbuilds, hlocals, hstay]
  | @badDependency _ _ _ t _ hbuilds hlocals hdepend =>
    rw [turnBelow, if_pos hbuilds, hlocals]
    cases b with
    | child i =>
      simp only [hdepend]
      exact (hstay _).symm
    | dependency i =>
      have hdependencies := getElem?_compileAll r.dependencies t i
      rw [hdepend] at hdependencies
      exact hdependencies
  | badTest hbuilds hlocals hdepend htest => exact branch?_of_parts hbuilds hlocals hdepend htest b
  | made hbuilds hlocals hdepend htest _ => exact branch?_of_parts hbuilds hlocals hdepend htest b

/-- If a node comes to its test, the turn of a rule below it lies between the beginning and the end
of that. -/
theorem before_turnBelow_of_parts (hbuilds : r.Builds force)
    (hlocals : compileVariables r.kind r.scope r.locals s = (.ok getters, t))
    (hdepend : compileAll r.dependencies t = ((.ok checks, ds), u))
    (htest : compileTest r.scope r.operator r.test u = ((main, test), v)) {w : Session}
    (hw : turnBelow force r s b = some w) (hn : r.branch? b = some n) :
    s.Before w ∧ (n.compile false w).2.Before v := by
  obtain ⟨hst, htu, huv⟩ := before_of_parts hlocals hdepend htest
  rw [turnBelow_eq hbuilds hlocals hdepend] at hw
  cases b with
  | child i =>
    obtain ⟨hfirst, hrest⟩ := before_turnTest hw hn
    rw [htest] at hrest
    exact ⟨(hst.trans htu).trans hfirst, hrest⟩
  | dependency i =>
    obtain ⟨hfirst, hrest⟩ := before_turn hw hn
    rw [hdepend] at hrest
    exact ⟨hst.trans hfirst, hrest.trans huv⟩

theorem Compiles.before_turnBelow (h : Compiles force r s result r' s')
    (ht : turnBelow force r s b = some t) (hn : r.branch? b = some n) :
    s.Before t ∧ (n.compile false t).2.Before s' := by
  have hlocals := compileVariables_advances r.kind r.scope r.locals s
  cases h with
  | found hforce hmemo =>
    rw [turnBelow, if_neg (not_builds hforce hmemo)] at ht
    cases ht
  | badLocals hbuilds hrun =>
    rw [turnBelow, if_pos hbuilds, hrun] at ht
    cases ht
  | @badDependency _ _ _ u _ hbuilds hrun hdepend =>
    rw [turnBelow, if_pos hbuilds, hrun] at ht
    rw [hrun] at hlocals
    cases b with
    | child i =>
      simp only [hdepend] at ht
      cases ht
    | dependency i =>
      obtain ⟨hfirst, hrest⟩ := before_turn ht hn
      rw [hdepend] at hrest
      exact ⟨hlocals.trans hfirst, hrest⟩
  | badTest hbuilds hlocals hdepend htest =>
    exact before_turnBelow_of_parts hbuilds hlocals hdepend htest ht hn
  | @made _ _ _ _ _ _ _ v _ hbuilds hlocals hdepend htest _ =>
    obtain ⟨hfirst, hrest⟩ := before_turnBelow_of_parts hbuilds hlocals hdepend htest ht hn
    exact ⟨hfirst, hrest.trans (Work.advances_fresh v)⟩

/-- A new check of a node comes after everything that is compiled below the node. -/
theorem Compiles.turnBelow_le (h : Compiles force r s (.ok c) r' s')
    (ht : turnBelow force r s b = some t) (hn : r.branch? b = some n) :
    (n.compile false t).2.fresh ≤ c.id := by
  cases h with
  | found hforce hmemo =>
    rw [turnBelow, if_neg (not_builds hforce hmemo)] at ht
    cases ht
  | made hbuilds hlocals hdepend htest hc =>
    subst hc
    exact (before_turnBelow_of_parts hbuilds hlocals hdepend htest ht hn).2.fresh

/-- A node that is compiled without a fault compiles all rules below it without one, if it compiles
any. -/
theorem Compiles.turnBelow_of_ok (h : Compiles force r s (.ok c) r' s') (hbuilds : r.Builds force)
    (hn : r.branch? b = some n) :
    ∃ t d, turnBelow force r s b = some t ∧ (n.compile false t).1.1 = .ok d := by
  cases h with
  | found hforce hmemo => exact absurd hbuilds (not_builds hforce hmemo)
  | made _ hlocals hdepend htest _ =>
    rw [turnBelow_eq hbuilds hlocals hdepend]
    cases b with
    | child i => exact turnTest_of_ok (by rw [htest]) hn
    | dependency i => exact turn_of_ok (by rw [hdepend]) hn

/-- The check that a node comes to is the one that it has kept, or a new one. -/
theorem Compiles.check (h : Compiles force r s (.ok c) r' s') :
    force = false ∧ r.memo = some ⟨r.digest, c⟩ ∨
      r.Builds force ∧ s.fresh ≤ c.id ∧ c.id < s'.fresh := by
  cases h with
  | found hforce hmemo => exact .inl ⟨hforce, hmemo⟩
  | made hbuilds hlocals hdepend htest hc =>
    obtain ⟨hst, htu, huv⟩ := before_of_parts hlocals hdepend htest
    subst hc
    exact .inr ⟨hbuilds, ((hst.trans htu).trans huv).fresh, Nat.lt_succ_self _⟩

/-- A forced compilation and one that fails leave the kept check of the node as it is. -/
theorem Compiles.memo_eq (h : Compiles force r s result r' s')
    (hkeep : force = true ∨ ∃ f, result = .error f) : r'.memo = r.memo := by
  cases h with
  | made _ _ _ _ _ =>
    rcases hkeep with rfl | ⟨f, hf⟩
    · rfl
    · cases hf
  | _ => rfl

end Compiles

/-! ## The whole tree -/

section Visit

variable {force : Bool} {r n : Rule} {s t : Session} {way : List Branch}

theorem node?_compile (force : Bool) (r : Rule) (s : Session) (way : List Branch) :
    (r.compile force s).1.2.node? way =
      (r.node? way).map fun n => n.visited (force && way.isEmpty) (r.visit force s way) := by
  induction way generalizing force r s with
  | nil =>
    rw [node?, node?, Option.map_some, visit, visited, List.isEmpty_nil, Bool.and_true]
  | cons b way ih =>
    rw [node?_cons, node?_cons, (compiles force r s).branch?, visit, List.isEmpty_cons,
      Bool.and_false]
    cases hc : r.branch? b with
    | none => rfl
    | some c =>
      cases ht : turnBelow force r s b with
      | none => exact (Option.map_id').symm
      | some t =>
        have h := ih false c t
        rw [Bool.false_and] at h
        exact h

/-- The visit of a node lies between the beginning and the end. -/
theorem before_visit (ht : r.visit force s way = some t) (hn : r.node? way = some n) :
    s.Before t ∧ (n.compile (force && way.isEmpty) t).2.Before (r.compile force s).2 := by
  induction way generalizing force r s with
  | nil =>
    cases ht
    cases hn
    rw [List.isEmpty_nil, Bool.and_true]
    exact ⟨.refl _, .refl _⟩
  | cons b way ih =>
    obtain ⟨c, hc, hn⟩ := node?_cons_eq_some hn
    rw [visit, hc] at ht
    obtain ⟨u, hu, ht⟩ := Option.bind_eq_some_iff.mp ht
    obtain ⟨hfirst, hlast⟩ := (compiles force r s).before_turnBelow hu hc
    obtain ⟨hbefore, hafter⟩ := ih ht hn
    rw [List.isEmpty_cons, Bool.and_false]
    rw [Bool.false_and] at hafter
    exact ⟨hfirst.trans hbefore, hafter.trans hlast⟩

end Visit

end Verdict.Rule
