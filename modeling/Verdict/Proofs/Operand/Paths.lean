import Verdict.Operand.Getter
import Verdict.Proofs.Session

/-!
# Paths that operands put into the cache

Making an operand ready fetches the paths that stand in it, at any depth, and those that its steps
collect, each from the cache of the scope.  If that succeeds and the cache has no limit, it keeps
exactly these paths besides the ones that it kept before.
-/

namespace Verdict

/-! ## Paths of operands -/

def Step.pathTexts (s : Step) : List String :=
  match s.action with
  | .collect path => [path]
  | _ => []

namespace Operand

mutual
def pathTexts : Operand → List String
  | ⟨origin, steps⟩ => pathTextsOrigin origin ++ steps.flatMap Step.pathTexts

def pathTextsOrigin : Origin → List String
  | .path text _ => [text]
  | .range inner => pathTexts inner
  | .between low high => pathTextsBound low ++ pathTextsBound high
  | .record | .literal _ | .day _ | .env _ => []

def pathTextsBound : Option Operand → List String
  | none => []
  | some o => pathTexts o
end

end Operand

/-! ## Sessions -/

namespace Session

def Unbounded (s : Session) (id : ScopeId) : Prop :=
  id.index < s.scopes.size ∧ (s.scope id).paths.capacity = none

def KeepsPath (s : Session) (id : ScopeId) (text : String) : Prop :=
  (s.scope id).paths.contains text = true

/-- From one session to another, exactly these paths have come into the cache of a scope. -/
structure Primed (id : ScopeId) (texts : List String) (s t : Session) : Prop where
  unbounded : t.Unbounded id
  keeps_iff : ∀ text, t.KeepsPath id text ↔ s.KeepsPath id text ∨ text ∈ texts

variable {id : ScopeId} {xs ys : List String} {s t u : Session}

theorem Primed.trans (hst : Primed id xs s t) (htu : Primed id ys t u) :
    Primed id (xs ++ ys) s u where
  unbounded := htu.unbounded
  keeps_iff text := by rw [htu.keeps_iff, hst.keeps_iff, List.mem_append, or_assoc]

theorem Primed.congr (h : Primed id xs s t) (hxy : ∀ text, text ∈ xs ↔ text ∈ ys) :
    Primed id ys s t :=
  ⟨h.unbounded, fun text => by rw [h.keeps_iff, hxy]⟩

/-- Nothing comes in where the cache stays the same. -/
theorem primed_nil (hs : s.Unbounded id) (hsize : t.scopes.size = s.scopes.size)
    (hpaths : (t.scope id).paths = (s.scope id).paths) : Primed id [] s t where
  unbounded := ⟨hsize ▸ hs.1, hpaths ▸ hs.2⟩
  keeps_iff text := by simp [KeepsPath, hpaths]

theorem scope_setScope_fresh (hs : id.index < s.scopes.size) (scope : Scope) (fresh : Nat) :
    Session.scope { s.setScope id scope with fresh } id = scope :=
  (scope_setScope s id id scope).trans (if_pos ⟨rfl, hs⟩)

theorem size_setScope (s : Session) (id : ScopeId) (scope : Scope) :
    (s.setScope id scope).scopes.size = s.scopes.size :=
  Array.size_setIfInBounds

end Session

open Session

/-! ## Work -/

namespace Work

variable {α β : Type} {id : ScopeId} {xs ys : List String}

/-- Work that puts exactly these paths into the cache of a scope, if it succeeds. -/
def Primes (id : ScopeId) (texts : List String) (w : Work α) : Prop :=
  ∀ s a t, s.Unbounded id → w s = (.ok a, t) → Primed id texts s t

theorem primes_pure (a : α) : Primes id [] (pure a) := by
  intro s _ t hs hrun
  cases hrun
  exact primed_nil hs rfl rfl

theorem primes_throw (f : Fault) : Primes id xs (throw f : Work α) := by
  intro s a t _ hrun
  cases hrun

theorem primes_lift (r : Except Fault α) : Primes id [] (liftM r : Work α) := by
  cases r with
  | error f => exact primes_throw f
  | ok a => exact primes_pure a

theorem Primes.bind {w : Work α} {k : α → Work β} (hw : Primes id xs w)
    (hk : ∀ a, Primes id ys (k a)) : Primes id (xs ++ ys) (w >>= k) := by
  intro s b u hs hrun
  rw [bind_apply] at hrun
  rcases hfirst : w s with ⟨f | a, t⟩ <;> rw [hfirst] at hrun
  · cases hrun
  · have hst := hw s a t hs hfirst
    exact hst.trans (hk a t b u hst.unbounded hrun)

/-- Work that ends with a result of what came before. -/
theorem Primes.map {w : Work α} {k : α → Work β} (hw : Primes id xs w)
    (hk : ∀ a, Primes id [] (k a)) : Primes id xs (w >>= k) := by
  have h := hw.bind hk
  rwa [List.append_nil] at h

/-- What follows a result that is there from the start, if it is there. -/
theorem primes_lift_bind {r : Except Fault α} {k : α → Work β}
    (hk : ∀ a, r = .ok a → Primes id xs (k a)) : Primes id xs (liftM r >>= k) := by
  cases r with
  | error f => exact primes_throw f
  | ok a => exact hk a rfl

theorem primes_path (id : ScopeId) (text : String) : Primes id [text] (path id text) := by
  intro s p t hs hrun
  rcases hfetch : (s.scope id).paths.fetch Path.compile text s.fresh with ⟨result, paths, fresh⟩
  simp only [path, hfetch] at hrun
  rcases result with f | shared
  · cases hrun
  · cases hrun
    have hok : ((s.scope id).paths.fetch Path.compile text s.fresh).1 = .ok shared := by
      rw [hfetch]
    have hkeeps := Cache.contains_fetch hs.2 hok
    have hcapacity := Cache.capacity_fetch (s.scope id).paths Path.compile text s.fresh
    rw [hfetch] at hkeeps hcapacity
    constructor
    · refine ⟨?_, ?_⟩
      · exact (size_setScope s id _).symm ▸ hs.1
      · rw [scope_setScope_fresh hs.1]
        exact hcapacity.trans hs.2
    · intro k
      rw [KeepsPath, scope_setScope_fresh hs.1, List.mem_singleton]
      exact hkeeps k

theorem primes_pattern (id : ScopeId) (text : String) : Primes id [] (pattern id text) := by
  intro s p t hs hrun
  rcases hfetch : (s.scope id).patterns.fetch Pattern.buildDelimited text s.fresh with
    ⟨result, patterns, fresh⟩
  simp only [pattern, hfetch] at hrun
  obtain ⟨-, rfl⟩ := Prod.mk.inj hrun
  refine primed_nil hs (size_setScope s id _) ?_
  rw [scope_setScope_fresh hs.1]

theorem primes_locale (id : ScopeId) : Primes id [] (locale id) := by
  intro s _ t hs hrun
  cases hrun
  exact primed_nil hs rfl rfl

end Work

open Work

/-! ## Steps -/

theorem Action.prepare_primes (scope : ScopeId) (a : Action) (whole : Bool) :
    Primes scope (Step.pathTexts ⟨a, whole⟩) (a.prepare scope) := by
  cases a with
  | custom code => exact primes_throw _
  | regexp pattern replacement =>
    cases pattern with
    | none => exact primes_throw _
    | some p =>
      rw [prepare]
      split
      · exact primes_throw _
      · exact (primes_lift _).map fun _ => primes_pure _
  | split delimiter => exact (primes_lift _).map fun _ => primes_pure _
  | measurement assume target => exact (primes_lift _).map fun _ => primes_pure _
  | collect path => exact (primes_path scope path).map fun _ => primes_pure _
  | _ => exact primes_pure _

namespace Pipeline

theorem prepareAll_primes (scope : ScopeId) (steps : List Step) :
    Primes scope (steps.flatMap Step.pathTexts) (prepareAll scope steps) := by
  induction steps with
  | nil => exact primes_pure []
  | cons s rest ih =>
    rw [List.flatMap_cons]
    exact (Action.prepare_primes scope s.action s.whole).bind fun _ =>
      ih.map fun _ => primes_pure _

theorem compile_primes (steps : List Step) (kind : Kind) (scope : ScopeId) :
    Primes scope (steps.flatMap Step.pathTexts) (compile steps kind scope) :=
  (prepareAll_primes scope steps).map fun _ =>
    (primes_locale scope).map fun _ => primes_pure _

end Pipeline

/-! ## Operands -/

namespace Operand

theorem blame_primes {α : Type} {scope : ScopeId} {texts : List String} {w : Work α} (o : Operand)
    (hw : Primes scope texts w) : Primes scope texts (o.blame w) := by
  intro s a t hs hrun
  rw [blame] at hrun
  rcases hfirst : w s with ⟨f | b, u⟩ <;> rw [hfirst] at hrun
  · cases f <;> cases hrun
  · cases hrun
    exact hw s a t hs hfirst

mutual
theorem compile_primes (kind : Kind) (scope : ScopeId) : (o : Operand) →
    Primes scope o.pathTexts (o.compile kind scope)
  | ⟨origin, steps⟩ => by
    rw [compile, pathTexts]
    refine blame_primes _ ((compileOrigin_primes kind scope origin).bind fun getter => ?_)
    split
    · rename_i hsteps
      rw [List.isEmpty_iff.mp hsteps]
      exact primes_pure getter
    · exact (Pipeline.compile_primes steps kind scope).map fun _ => primes_pure _

theorem compileOrigin_primes (kind : Kind) (scope : ScopeId) : (o : Origin) →
    Primes scope (pathTextsOrigin o) (compileOrigin kind scope o)
  | .record | .literal _ | .day _ | .env _ => primes_pure _
  | .path text _ => (primes_path scope text).map fun _ => primes_pure _
  | .range inner => (compile_primes kind scope inner).map fun _ => primes_pure _
  | .between low high =>
    (compileBound_primes kind scope low).bind fun _ =>
      (compileBound_primes kind scope high).map fun _ => primes_pure _

theorem compileBound_primes (kind : Kind) (scope : ScopeId) : (o : Option Operand) →
    Primes scope (pathTextsBound o) (compileBound kind scope o)
  | none => primes_pure _
  | some o => compile_primes kind scope o
end

theorem compile?_primes (kind : Kind) (scope : ScopeId) (o : Option Operand) :
    Primes scope (pathTextsBound o) (compile? kind scope o) := by
  cases o with
  | none => exact primes_pure _
  | some o => exact compile_primes kind scope o

end Operand

end Verdict
