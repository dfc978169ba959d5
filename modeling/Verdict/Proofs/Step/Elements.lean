import Mathlib.Data.List.Forall2
import Verdict.Proofs.Fault
import Verdict.Proofs.Operand.Meaning

/-!
# Pipelines, one value at a time

A step that is not for the whole list makes one value of each value, so the values of a list go
through such steps side by side.  Any steps may be cut in two: the second part goes on with the list
of what came out of the first.  Neither depends on what the caches hold when the steps are made
ready.
-/

namespace Verdict

def Session.Speaks (s : Session) (scope : ScopeId) (locale : String) : Prop :=
  s.Reached ∧ s.tongue scope = locale

namespace Pipeline

variable {kind : Kind} {locale : String} {scope : ScopeId} {s t u : Session} {steps : List Step}

/-! ## Values between steps -/

/-- The list that comes out of steps that a list goes through. -/
def flow (kind : Kind) (locale : String) (ready : List ReadyStep) (values : List Json) :
    List Json :=
  ready.foldl (fun vs r => applyStep kind locale r vs) values

theorem flow_append (first second : List ReadyStep) (values : List Json) :
    flow kind locale (first ++ second) values =
      flow kind locale second (flow kind locale first values) :=
  List.foldl_append

theorem apply_of_present (ready : List ReadyStep) {v : Json} (hv : v.isNull = false) :
    apply ⟨ready, kind, locale⟩ (some v) = flow kind locale ready v.elements := by
  cases v with
  | null => cases hv
  | bool | num | str | arr | obj => rfl

/-- What the steps make of one value. -/
def through (kind : Kind) (locale : String) (ready : List ReadyStep) (v : Json) : Json :=
  ready.foldl (fun v r => r.step.action.apply kind locale r.tool v) v

theorem flow_eq_map {ready : List ReadyStep} (hready : ∀ r ∈ ready, r.step.whole = false)
    (values : List Json) :
    flow kind locale ready values = values.map (through kind locale ready) := by
  induction ready generalizing values with
  | nil => exact (List.map_id values).symm
  | cons r ready ih =>
    rw [List.forall_mem_cons] at hready
    have hstep : applyStep kind locale r values =
        values.map (r.step.action.apply kind locale r.tool) := by
      rw [applyStep, hready.1]
      rfl
    rw [flow, List.foldl_cons, hstep]
    exact (ih hready.2 _).trans List.map_map

/-! ## Steps made ready -/

/-- What steps make of a value when every path and every pattern is read anew. -/
def meaning (kind : Kind) (locale : String) (steps : List Step) (value : Option Json) :
    Except Fault (List Json) := do
  return apply ⟨← steps.mapM Step.ready, kind, locale⟩ value

theorem run_eq (hs : s.Speaks scope locale) (value : Option Json) :
    (run steps kind scope value s).1 = meaning kind locale steps value := by
  obtain ⟨hreached, rfl⟩ := hs
  have hmakes := (compile_makes s.tongue steps kind scope s hreached.sound rfl).2
  rw [run, Work.bind_apply, meaning]
  rcases hrun : compile steps kind scope s with ⟨f | p, t⟩ <;> rw [hrun] at hmakes
  · have hready : steps.mapM Step.ready = .error f := map_eq_error_iff.mp hmakes
    rw [hready]
    rfl
  · obtain ⟨-, ready, hready, rfl⟩ := hmakes
    rw [hready]
    rfl

theorem step_of_ready {ready : List ReadyStep} (h : steps.mapM Step.ready = .ok ready) :
    ready.map (·.step) = steps := by
  induction steps generalizing ready with
  | nil =>
    cases h
    rfl
  | cons p steps ih =>
    rw [List.mapM_cons] at h
    obtain ⟨r, hr, h⟩ := bind_eq_ok h
    obtain ⟨rest, hrest, h⟩ := bind_eq_ok h
    cases h
    rw [List.map_cons, ih hrest]
    obtain ⟨tool, -, rfl⟩ := map_eq_ok hr
    rfl

theorem exists_ready (hs : s.Speaks scope locale)
    (hok : ∃ p, (compile steps kind scope s).1 = .ok p) :
    ∃ ready, steps.mapM Step.ready = .ok ready := by
  have hmakes := (compile_makes s.tongue steps kind scope s hs.1.sound rfl).2
  exact forget_eq_ok_iff.mp (hmakes.isOk_iff.mp hok)

theorem meaning_of_ready {ready : List ReadyStep} (hready : steps.mapM Step.ready = .ok ready)
    {v : Json} (hv : v.isNull = false) :
    meaning kind locale steps (some v) = .ok (flow kind locale ready v.elements) := by
  rw [meaning, hready, ← apply_of_present ready hv]
  rfl

/-- The second part goes on with the list of what came out of the first. -/
theorem meaning_append (first second : List Step) {v : Json} (hv : v.isNull = false) :
    meaning kind locale (first ++ second) (some v) =
      (do
        let values ← meaning kind locale first (some v)
        meaning kind locale second (some (.arr values))) := by
  have hmapM : (first ++ second).mapM Step.ready = (do
      let ready ← first.mapM Step.ready
      return ready ++ (← second.mapM Step.ready)) := List.mapM_append
  cases hfirst : first.mapM Step.ready with
  | error f =>
    rw [meaning, meaning, hmapM, hfirst]
    rfl
  | ok ready =>
    rw [meaning_of_ready hfirst hv]
    cases hsecond : second.mapM Step.ready with
    | error f =>
      rw [meaning, hmapM, hfirst, hsecond]
      change _ = meaning kind locale second (some (.arr _))
      rw [meaning, hsecond]
      rfl
    | ok more =>
      have hboth : (first ++ second).mapM Step.ready = .ok (ready ++ more) := by
        rw [hmapM, hfirst, hsecond]
        rfl
      rw [meaning_of_ready hboth hv, flow_append]
      exact (meaning_of_ready hsecond (v := .arr _) rfl).symm

/-! ## Elements -/

/-- Values go through steps that are not for the whole list side by side, whatever else is in the
list; and steps in a row are one pipeline after the other. -/
theorem elements_apart (kind : Kind) (steps : List Step) (hs : s.Speaks scope locale)
    (ht : t.Speaks scope locale) (hu : u.Speaks scope locale) :
    ((∀ p ∈ steps, p.whole = false) → (∃ p, (compile steps kind scope s).1 = .ok p) →
        ∀ xs : List Json, ∃ ys,
          (run steps kind scope (some (.arr xs)) s).1 = .ok ys ∧
            List.Forall₂ (fun x y => (run steps kind scope (some (.arr [x])) t).1 = .ok [y]) xs ys ∧
            (xs.mapM fun x => (run steps kind scope (some (.arr [x])) t).1).map List.flatten =
              .ok ys) ∧
      ∀ (first second : List Step) (v : Json), v.isNull = false →
        (run (first ++ second) kind scope (some v) s).1 = (do
          let values ← (run first kind scope (some v) t).1
          (run second kind scope (some (.arr values)) u).1) := by
  constructor
  · intro hplain hok xs
    obtain ⟨ready, hready⟩ := exists_ready hs hok
    have hsteps : ∀ r ∈ ready, r.step.whole = false := by
      intro r hr
      refine hplain r.step ?_
      rw [← step_of_ready hready]
      exact List.mem_map_of_mem hr
    have hlist : ∀ vs, meaning kind locale steps (some (.arr vs)) =
        .ok (vs.map (through kind locale ready)) := by
      intro vs
      rw [meaning_of_ready hready rfl]
      exact congrArg Except.ok (flow_eq_map hsteps vs)
    have hone : ∀ x, (run steps kind scope (some (.arr [x])) t).1 =
        .ok [through kind locale ready x] :=
      fun x => (run_eq ht _).trans (hlist [x])
    refine ⟨xs.map (through kind locale ready), (run_eq hs _).trans (hlist xs), ?_, ?_⟩
    · rw [List.forall₂_map_right_iff]
      exact List.forall₂_same.mpr fun x _ => hone x
    · simp only [hone]
      induction xs with
      | nil => rfl
      | cons x xs ih =>
        rw [List.mapM_cons]
        obtain ⟨lists, hlists, hflat⟩ := map_eq_ok ih
        rw [hlists, List.map_cons, ← hflat]
        rfl
  · intro first second v hv
    rw [run_eq hs, run_eq ht, meaning_append first second hv]
    simp only [run_eq hu]

theorem elements_apart_first :
    let scope : ScopeId := ⟨0⟩
    let steps : List Step := [⟨.first, false⟩]
    let xs : List Json := [.arr [.str "a", .str "b"], .null]
    Session.Speaks {} scope "en-US" ∧ (∃ p, (compile steps .primitive scope {}).1 = .ok p) ∧
      (xs.mapM fun x => (run steps .primitive scope (some (.arr [x])) {}).1).map List.flatten =
        .ok [.str "a", .null] ∧
      (do
        let values ← (run steps .primitive scope (some (.arr xs)) {}).1
        (run [⟨.length, true⟩] .primitive scope (some (.arr values)) {}).1) = .ok [.ofInt 2] := by
  intro scope steps xs
  have hs : Session.Speaks {} scope "en-US" := ⟨Session.reached_empty, rfl⟩
  have hok : ∃ p, (compile steps .primitive scope {}).1 = .ok p := ⟨_, rfl⟩
  obtain ⟨helements, hparts⟩ := elements_apart .primitive steps hs hs hs
  obtain ⟨ys, hrun, -, hflat⟩ := helements (by decide) hok xs
  have hys : ys = [.str "a", .null] := (Except.ok.inj hrun).symm
  refine ⟨hs, hok, hys ▸ hflat, ?_⟩
  rw [← hparts steps [⟨.length, true⟩] (.arr xs) rfl]
  rfl

end Pipeline

end Verdict
