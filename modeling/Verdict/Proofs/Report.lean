import Verdict.Proofs.Fault

/-!
# The first of all faults

Work that stops at a fault reports the first of all faults that there are in what it looks at, and
comes to a value exactly if there are none.
-/

namespace Verdict

variable {α β γ : Type} {x : Except Fault α} {f : Fault} {faults more : List Fault}

/-- Work that fails with the first of the faults, and else comes to a value. -/
def Reports (faults : List Fault) : Except Fault α → Prop
  | .ok _ => faults = []
  | .error f => faults.head? = some f

theorem reports_error : Reports [f] (.error f : Except Fault α) :=
  rfl

theorem reports_ok (a : α) : Reports [] (.ok a) :=
  rfl

theorem Reports.isOk_iff (h : Reports faults x) : (∃ a, x = .ok a) ↔ faults = [] := by
  cases x with
  | ok a => exact iff_of_true ⟨a, rfl⟩ h
  | error f =>
    refine iff_of_false nofun ?_
    rintro rfl
    cases h

theorem Reports.eq_error_iff (h : Reports faults x) : x = .error f ↔ faults.head? = some f := by
  cases x with
  | ok a =>
    rw [show faults = [] from h]
    exact ⟨nofun, nofun⟩
  | error e =>
    rw [show faults.head? = some e from h, Except.error.injEq, Option.some.injEq]

theorem Reports.bind {k : α → Except Fault β} (hx : Reports faults x)
    (hk : ∀ a, x = .ok a → Reports more (k a)) : Reports (faults ++ more) (x >>= k) := by
  cases x with
  | ok a =>
    rw [show faults = [] from hx]
    exact hk a rfl
  | error e =>
    change (faults ++ more).head? = some e
    rw [List.head?_append, show faults.head? = some e from hx]
    rfl

theorem Reports.map (hx : Reports faults x) (k : α → β) : Reports faults (x.map k) := by
  cases x <;> exact hx

theorem reports_mapM {work : γ → Except Fault α} {faults : γ → List Fault} {xs : List γ}
    (h : ∀ x ∈ xs, Reports (faults x) (work x)) : Reports (xs.flatMap faults) (xs.mapM work) := by
  induction xs with
  | nil => exact reports_ok []
  | cons x xs ih =>
    rw [List.forall_mem_cons] at h
    rw [List.mapM_cons, List.flatMap_cons]
    exact h.1.bind fun a _ => (ih h.2).map (a :: ·)

def faultOf : Except Fault α → List Fault
  | .ok _ => []
  | .error f => [f]

theorem reports_faultOf (x : Except Fault α) : Reports (faultOf x) x := by
  cases x with
  | ok a => exact reports_ok a
  | error f => exact reports_error

theorem faultOf_eq_nil_iff : faultOf x = [] ↔ ∃ a, x = .ok a :=
  (reports_faultOf x).isOk_iff.symm

end Verdict
