import Verdict.Proofs.Rule.Run

/-!
# Sessions move forward

Whatever is prepared, compiled or run in a session, sound or not, the session only moves forward:
it hands out higher identities, and it keeps its locales and the soundness of its caches.
-/

namespace Verdict

namespace Session

/-- A session that work may have made of another one. -/
structure Before (s t : Session) : Prop where
  fresh : s.fresh ≤ t.fresh
  sound : s.Sound → t.Sound
  tongue : t.tongue = s.tongue

theorem Before.refl (s : Session) : s.Before s :=
  ⟨Nat.le_refl _, id, rfl⟩

theorem Before.trans {s t u : Session} (hst : s.Before t) (htu : t.Before u) : s.Before u :=
  ⟨Nat.le_trans hst.fresh htu.fresh, htu.sound ∘ hst.sound, htu.tongue.trans hst.tongue⟩

/-- Other caches in a scope are a move forward if they are sound whenever the old ones were. -/
theorem before_setScope (s : Session) (id : ScopeId) (scope : Scope)
    (hscope : s.Sound → scope.Sound) (hlocale : scope.locale = s.tongue id) {fresh : Nat}
    (hfresh : s.fresh ≤ fresh) : s.Before { s.setScope id scope with fresh } where
  fresh := hfresh
  sound hs := (leads_setScope hs id scope (hscope hs) hlocale fresh).sound
  tongue := by
    funext j
    change (Session.scope (s.setScope id scope) j).locale = _
    rw [scope_setScope]
    split
    · rename_i h
      rw [hlocale, h.1]
    · rfl

end Session

/-! ## Fetching -/

theorem Cache.le_fetch {α ε : Type} (build : String → Except ε α) (c : Cache α) (key : String)
    (fresh : Nat) : fresh ≤ (c.fetch build key fresh).2.2 := by
  unfold Cache.fetch
  split
  · exact Nat.le_refl _
  · split
    · exact Nat.le_refl _
    · exact Nat.le_succ _

theorem Operator.le_compareWith (op : Operator) (a b : Json) (patterns : Cache Pattern)
    (fresh : Nat) : fresh ≤ (op.compareWith a b patterns fresh).2.2 := by
  cases op with
  | matching => exact Cache.le_fetch Pattern.buildDelimited patterns b.form fresh
  | _ => exact Nat.le_refl _

namespace Work

variable {α β γ : Type}

/-- Work that leaves a later session, whatever session it begins in. -/
def Advances (w : StateM Session α) : Prop :=
  ∀ s : Session, s.Before (w s).2

theorem advances_ok (a : α) : Advances (pure a : Work α) :=
  fun s => .refl s

theorem advances_throw (f : Fault) : Advances (throw f : Work α) :=
  fun s => .refl s

theorem advances_lift (r : Except Fault α) : Advances (liftM r : Work α) := by
  intro s
  cases r <;> exact .refl s

theorem advances_pure (a : α) : Advances (pure a : StateM Session α) :=
  fun s => .refl s

theorem Advances.bind {w : StateM Session α} {k : α → StateM Session β} (hw : Advances w)
    (hk : ∀ a, Advances (k a)) : Advances (w >>= k) :=
  fun s => (hw s).trans (hk _ _)

/-- Work that may fail, and what follows if it does not. -/
theorem Advances.andThen {w : Work α} {k : α → Work β} (hw : Advances w)
    (hk : ∀ a, Advances (k a)) : Advances (w >>= k : Work β) := by
  intro s
  have hst := hw s
  rw [bind_apply]
  rcases hrun : w s with ⟨_ | a, t⟩ <;> rw [hrun] at hst
  · exact hst
  · exact hst.trans (hk a t)

theorem advances_mapM {w : γ → Work α} (h : ∀ x, Advances (w x)) (xs : List γ) :
    Advances (xs.mapM w : Work (List α)) := by
  induction xs with
  | nil => exact advances_ok []
  | cons x xs ih =>
    rw [List.mapM_cons]
    exact (h x).andThen fun a => ih.andThen fun as => advances_ok (a :: as)

theorem advances_fresh :
    Advances (modifyGet fun s : Session => (s.fresh, { s with fresh := s.fresh + 1 })) :=
  fun _ => ⟨Nat.le_succ _, id, rfl⟩

theorem advances_path (id : ScopeId) (text : String) : Advances (path id text) := fun s =>
  s.before_setScope id { s.scope id with paths := ((s.scope id).paths.fetch _ text s.fresh).2.1 }
    (fun hs => ⟨Cache.sound_fetch (hs id).paths text s.fresh, (hs id).patterns⟩) rfl
    (Cache.le_fetch Path.compile _ text _)

theorem advances_pattern (id : ScopeId) (text : String) : Advances (pattern id text) := fun s =>
  s.before_setScope id
    { s.scope id with patterns := ((s.scope id).patterns.fetch _ text s.fresh).2.1 }
    (fun hs => ⟨(hs id).paths, Cache.sound_fetch (hs id).patterns text s.fresh⟩) rfl
    (Cache.le_fetch Pattern.buildDelimited _ text _)

theorem advances_locale (id : ScopeId) : Advances (locale id) :=
  fun s => .refl s

end Work

open Work

/-! ## Operands -/

theorem Action.prepare_advances (scope : ScopeId) (a : Action) : Advances (a.prepare scope) := by
  cases a with
  | custom code => exact advances_throw _
  | regexp pattern replacement =>
    cases pattern with
    | none => exact advances_throw _
    | some p =>
      rw [prepare]
      split
      · exact advances_throw _
      · exact (advances_lift _).andThen fun _ => advances_ok _
  | split delimiter => exact (advances_lift _).andThen fun _ => advances_ok _
  | measurement assume target => exact (advances_lift _).andThen fun _ => advances_ok _
  | collect path => exact (advances_path scope path).andThen fun _ => advances_ok _
  | _ => exact advances_ok _

namespace Pipeline

theorem prepareAll_advances (scope : ScopeId) (steps : List Step) :
    Advances (prepareAll scope steps) := by
  induction steps with
  | nil => exact advances_ok []
  | cons s rest ih =>
    exact (Action.prepare_advances scope s.action).andThen fun _ =>
      ih.andThen fun _ => advances_ok _

theorem compile_advances (steps : List Step) (kind : Kind) (scope : ScopeId) :
    Advances (compile steps kind scope) :=
  (prepareAll_advances scope steps).andThen fun _ =>
    (advances_locale scope).andThen fun _ => advances_ok _

end Pipeline

namespace Operand

theorem blame_advances {α : Type} {w : Work α} (o : Operand) (hw : Advances w) :
    Advances (o.blame w) := by
  intro s
  have hst := hw s
  rw [blame]
  rcases hrun : w s with ⟨f | a, t⟩ <;> rw [hrun] at hst
  · cases f <;> exact hst
  · exact hst

mutual
theorem compile_advances (kind : Kind) (scope : ScopeId) : (o : Operand) →
    Advances (o.compile kind scope)
  | ⟨origin, steps⟩ => by
    rw [compile]
    refine blame_advances _ ((compileOrigin_advances kind scope origin).andThen fun getter => ?_)
    split
    · exact advances_ok getter
    · exact (Pipeline.compile_advances steps kind scope).andThen fun _ => advances_ok _

theorem compileOrigin_advances (kind : Kind) (scope : ScopeId) : (o : Origin) →
    Advances (compileOrigin kind scope o)
  | .record | .literal _ | .day _ | .env _ => advances_ok _
  | .path text _ => (advances_path scope text).andThen fun _ => advances_ok _
  | .range inner => (compile_advances kind scope inner).andThen fun _ => advances_ok _
  | .between low high =>
    (compileBound_advances kind scope low).andThen fun _ =>
      (compileBound_advances kind scope high).andThen fun _ => advances_ok _

theorem compileBound_advances (kind : Kind) (scope : ScopeId) : (o : Option Operand) →
    Advances (compileBound kind scope o)
  | none => advances_ok _
  | some o => compile_advances kind scope o
end

theorem compile?_advances (kind : Kind) (scope : ScopeId) (o : Option Operand) :
    Advances (compile? kind scope o) := by
  cases o with
  | none => exact advances_ok _
  | some o => exact compile_advances kind scope o

end Operand

/-! ## Rules -/

namespace Rule

theorem compileSides_advances (kind : Kind) (scope : ScopeId) (op : Operator)
    (left right : Option Operand) : Advances (compileSides kind scope op left right) := by
  have hrequired : ∀ reason o, Advances (liftM (required kind op reason o) : Work Operand) :=
    fun reason o => advances_lift _
  refine (hrequired _ _).andThen fun l => ?_
  have hsides : Advances (do return (← l.compile kind scope, ← Operand.compile? kind scope right)
      : Work (Getter × Getter)) :=
    (l.compile_advances kind scope).andThen fun _ =>
      (Operand.compile?_advances kind scope right).andThen fun _ => advances_ok _
  split
  · exact (hrequired _ _).andThen fun _ => hsides
  · exact hsides

theorem preparePattern_advances (scope : ScopeId) (op : Operator) (rightText : String)
    (right : Option Operand) : Advances (preparePattern scope op rightText right) := by
  unfold preparePattern
  split
  · rename_i pattern _
    intro s
    have hst := advances_pattern scope pattern s
    rcases hrun : Work.pattern scope pattern s with ⟨_ | _, t⟩ <;> rw [hrun] at hst <;>
      simp only [hrun] <;> exact hst
  · exact advances_ok _

theorem compileComparison_advances (scope : ScopeId) (op : Operator) (as : Comparand)
    (left right : Option Operand) : Advances (compileComparison scope op as left right) := by
  have hsides := fun kind => compileSides_advances kind scope op left right
  have hinstants : ∀ kind, Advances (compileInstants kind scope op left right) := by
    intro kind
    unfold compileInstants
    split
    · exact (hsides kind).andThen fun _ => advances_ok _
    · split
      · exact advances_throw _
      · exact (hsides kind).andThen fun _ => advances_ok _
  unfold compileComparison
  split
  · exact advances_ok _
  · cases as with
    | values =>
      simp only [compileValues]
      split
      · exact advances_throw _
      · exact (preparePattern_advances scope op _ right).andThen fun _ =>
          (hsides .primitive).andThen fun _ => advances_ok _
    | dates => exact hinstants .date
    | times => exact hinstants .time

theorem compilePresence_advances (scope : ScopeId) (left : Option Operand) :
    Advances (compilePresence scope left) := by
  cases left with
  | none => exact advances_ok _
  | some o => exact (o.compile_advances .presence scope).andThen fun _ => advances_ok _

theorem compileVariables_advances (kind : Kind) (scope : ScopeId) (locals : Members Operand) :
    Advances (compileVariables kind scope locals) := by
  induction locals with
  | nil => exact advances_ok []
  | cons l rest ih =>
    exact (l.2.compile_advances kind scope).andThen fun _ => ih.andThen fun _ => advances_ok _

theorem compileCollection_advances (scope : ScopeId) (op : Operator) (left : Option Operand)
    (cs : List Rule) : Advances (compileCollection scope op left cs) :=
  (advances_lift _).andThen fun _ =>
    (advances_lift _).andThen fun l => l.compile_advances .iterate scope

mutual
theorem compile_advances (force : Bool) : (r : Rule) → Advances (compile force r)
  | ⟨test, op, dependencies, locals, description, scope, memo⟩ => by
    rw [compile]
    simp only []
    split
    · exact advances_pure _
    · refine Advances.bind (compileVariables_advances test.kind scope locals) fun result => ?_
      cases result with
      | error f => exact advances_pure _
      | ok getters =>
        refine (compileAll_advances dependencies).bind fun (result, dependencies') => ?_
        cases result with
        | error f => exact advances_pure _
        | ok checks =>
          refine (compileTest_advances scope op test).bind fun (result, test') => ?_
          cases result with
          | error f => exact advances_pure _
          | ok main => exact advances_fresh.bind fun _ => advances_pure _

theorem compileTest_advances (scope : ScopeId) (op : Operator) : (test : Test Rule) →
    Advances (compileTest scope op test)
  | .compare as left right => by
    rw [compileTest]
    exact Advances.bind (compileComparison_advances scope op as left right) fun _ =>
      advances_pure _
  | .presence left => by
    rw [compileTest]
    exact Advances.bind (compilePresence_advances scope left) fun _ => advances_pure _
  | .compound cs => by
    rw [compileTest]
    cases checkGroup .compound op cs .compoundEmpty .compoundOperator with
    | error f => exact advances_pure _
    | ok _ => exact (compileAll_advances cs).bind fun _ => advances_pure _
  | .iterate left cs => by
    rw [compileTest]
    refine Advances.bind (compileCollection_advances scope op left cs) fun result => ?_
    cases result with
    | error f => exact advances_pure _
    | ok collection => exact (compileAll_advances cs).bind fun _ => advances_pure _

theorem compileAll_advances : (rs : List Rule) → Advances (compileAll rs)
  | [] => advances_pure _
  | r :: rest => by
    rw [compileAll]
    refine (compile_advances false r).bind fun (result, r') => ?_
    cases result with
    | error f => exact advances_pure _
    | ok check => exact (compileAll_advances rest).bind fun _ => advances_pure _
end

end Rule

/-! ## Checks -/

namespace Check

theorem testValues_advances (op : Operator) (scope : ScopeId) (rightText : String)
    (left right : Option Json) : Advances (testValues op scope rightText left right) := by
  rcases left with _ | a
  · exact advances_ok false
  rcases right with _ | b
  · exact advances_ok false
  simp only [testValues]
  split
  · exact advances_ok false
  · intro s
    let out := op.compareWith a b (s.scope scope).patterns s.fresh
    have hkept := fun hs : s.Sound => Operator.sound_compareWith (hs scope).patterns op a b s.fresh
    exact s.before_setScope scope { s.scope scope with patterns := out.2.1 }
      (fun hs => ⟨(hs scope).paths, hkept hs⟩) rfl (Operator.le_compareWith op a b _ _)

theorem group_advances (kind : Kind) (op : Operator) (env : Environment) (traces : List Trace) :
    Advances (group kind op env traces) :=
  (advances_lift _).andThen fun _ => advances_ok _

theorem gate_advances (kind : Kind) (op : Operator) (env : Environment) (traces : List Trace)
    {main : Work Trace} (hmain : Advances main) : Advances (gate kind op env traces main) := by
  simp only [gate]
  split
  · exact hmain.andThen fun _ => advances_ok _
  · exact advances_ok _

mutual
/-- Running a check moves the session forward. -/
theorem run_advances (now : Instant) : (c : Check) → (record : Json) → (env : Environment) →
    Advances (c.run now record env)
  | ⟨_, kind, op, locals, dependencies, main⟩, record, env => by
    simp only [run]
    split
    · exact runMain_advances now kind op main record _
    · exact (runAll_advances now dependencies record _).andThen fun traces =>
        gate_advances kind op _ traces (runMain_advances now kind op main record _)

theorem runMain_advances (now : Instant) (kind : Kind) (op : Operator) : (main : Main) →
    (record : Json) → (env : Environment) → Advances (runMain now kind op main record env)
  | .pass, _, _ => advances_ok _
  | .compound children, record, env => by
    rw [runMain]
    exact (runAll_advances now children record env).andThen fun traces =>
      group_advances kind op env traces
  | .iterate collection children, record, env => by
    rw [runMain]
    refine (advances_mapM (fun target => ?_) _).andThen fun traces => ?_
    · exact (runAll_advances now children target env).andThen fun _ => advances_ok _
    · exact (group_advances kind op env traces).andThen fun _ => advances_ok _
  | .values scope rightText left right, record, env => by
    rw [runMain]
    exact (testValues_advances op scope rightText _ _).andThen fun _ => advances_ok _
  | .instants left right, record, env => by
    rw [runMain]
    exact advances_ok _
  | .extent left right, record, env => by
    rw [runMain]
    exact advances_ok _
  | .presence left, record, env => by
    rw [runMain]
    exact advances_ok _

theorem runAll_advances (now : Instant) : (checks : List Check) → (record : Json) →
    (env : Environment) → Advances (runAll now checks record env)
  | [], _, _ => advances_ok _
  | c :: rest, record, env => by
    rw [runAll]
    exact (run_advances now c record env).andThen fun _ =>
      (runAll_advances now rest record env).andThen fun _ => advances_ok _
end

end Check

end Verdict
