import Verdict.Proofs.Fault
import Verdict.Proofs.Operand.Meaning

/-!
# Usable operands

What texts and steps have to be like for an operand to be made ready, said of its parts one by one
and without the order in which they are looked at.  The audit of an operand passes exactly if the
operand is usable, and then the operand has a value, or none, in every record and environment.
-/

namespace Verdict

/-! ## Texts -/

def Pattern.IsValid (text : String) : Prop :=
  (Pattern.compile text).isSome = true

theorem Pattern.build_isOk_iff {text : String} :
    (∃ p, Pattern.build text = .ok p) ↔ Pattern.IsValid text := by
  rw [Pattern.build, Pattern.IsValid]
  cases Pattern.compile text with
  | none => exact ⟨nofun, nofun⟩
  | some p => exact ⟨fun _ => rfl, fun _ => ⟨p, rfl⟩⟩

theorem Pattern.build_of_invalid {text : String} (h : ¬ Pattern.IsValid text) :
    Pattern.build text = .error (.invalidPattern text) := by
  rw [Pattern.IsValid] at h
  rw [Pattern.build]
  cases hp : Pattern.compile text with
  | none => rfl
  | some p => exact absurd (congrArg Option.isSome hp) h

def Path.IsValid (text : String) : Prop :=
  ∃ p, Path.compile text = .ok p

/-! ## Steps -/

/-- An action that a tool can be found for.  Splits and measurements go by patterns as well: that of
a delimiter matches it as it stands, but may be too large. -/
def Action.Usable : Action → Prop
  | .custom _ => False
  | .regexp pattern _ =>
    ∃ p, pattern = some p ∧ p ≠ "" ∧ Pattern.IsValid (Pattern.stripDelimiters p)
  | .split delimiter => Pattern.IsValid ((delimiter.map Pattern.escape).getD ",\\s*")
  | .measurement .. => Pattern.IsValid measurementPattern
  | .collect path => Path.IsValid path
  | _ => True

theorem Action.tool_isOk_iff (a : Action) : (∃ tool, a.tool = .ok tool) ↔ a.Usable := by
  cases a with
  | custom code => exact ⟨nofun, nofun⟩
  | regexp pattern replacement =>
    cases pattern with
    | none => exact ⟨nofun, nofun⟩
    | some p =>
      simp only [tool, Usable, Option.some.injEq, exists_eq_left']
      split
      · rename_i hempty
        exact iff_of_false (by simp) fun h => h.1 (String.isEmpty_iff.mp hempty)
      · rename_i hfull
        rw [map_isOk_iff, Pattern.buildDelimited, Pattern.build_isOk_iff]
        exact ⟨fun h => ⟨fun hp => hfull (String.isEmpty_iff.mpr hp), h⟩, And.right⟩
  | split delimiter => cases delimiter <;> exact (map_isOk_iff _).trans Pattern.build_isOk_iff
  | measurement assume target => exact (map_isOk_iff _).trans Pattern.build_isOk_iff
  | collect path => exact map_isOk_iff _
  | _ => exact ⟨fun _ => trivial, fun _ => ⟨.none, rfl⟩⟩

theorem Pipeline.ready_isOk_iff (steps : List Step) :
    (∃ ready, steps.mapM Step.ready = .ok ready) ↔ ∀ s ∈ steps, s.action.Usable := by
  induction steps with
  | nil => exact ⟨fun _ => nofun, fun _ => ⟨[], rfl⟩⟩
  | cons s rest ih =>
    have hself : (∃ r, s.ready = .ok r) ↔ s.action.Usable :=
      (map_isOk_iff _).trans (Action.tool_isOk_iff s.action)
    rw [List.forall_mem_cons, ← ih, ← hself, List.mapM_cons]
    cases s.ready with
    | error f => exact ⟨nofun, nofun⟩
    | ok r =>
      cases rest.mapM Step.ready with
      | error f => exact ⟨nofun, nofun⟩
      | ok ready => exact ⟨fun _ => ⟨⟨r, rfl⟩, ready, rfl⟩, fun _ => ⟨r :: ready, rfl⟩⟩

/-! ## Operands -/

namespace Operand

mutual
def Usable : Operand → Prop
  | ⟨origin, steps⟩ => UsableOrigin origin ∧ ∀ s ∈ steps, s.action.Usable

def UsableOrigin : Origin → Prop
  | .path text _ => Path.IsValid text
  | .range inner => Usable inner
  | .between low high => UsableBound low ∧ UsableBound high
  | .record | .literal _ | .day _ | .env _ => True

def UsableBound : Option Operand → Prop
  | none => True
  | some o => Usable o
end

mutual
theorem audit_eq_ok_iff : (o : Operand) → (o.audit = .ok () ↔ o.Usable)
  | ⟨origin, steps⟩ => by
    rw [audit, Usable, mapError_eq_ok_iff, andThen_eq_ok_iff, auditOrigin_eq_ok_iff origin,
      Pipeline.audit, forget_eq_ok_iff, Pipeline.ready_isOk_iff]

theorem auditOrigin_eq_ok_iff : (o : Origin) → (auditOrigin o = .ok () ↔ UsableOrigin o)
  | .path text every => by
    rw [auditOrigin, UsableOrigin, forget_eq_ok_iff, Path.IsValid]
  | .range inner => audit_eq_ok_iff inner
  | .between low high => by
    rw [auditOrigin, UsableOrigin, andThen_eq_ok_iff, auditBound_eq_ok_iff low,
      auditBound_eq_ok_iff high]
  | .record | .literal _ | .day _ | .env _ => by
    exact ⟨fun _ => trivial, fun _ => rfl⟩

theorem auditBound_eq_ok_iff : (o : Option Operand) → (auditBound o = .ok () ↔ UsableBound o)
  | none => ⟨fun _ => trivial, fun _ => rfl⟩
  | some o => audit_eq_ok_iff o
end

section Find

variable (kind : Kind) (locale : String) (now : Instant) (record : Json) (env : Environment)

mutual
/-- A usable operand has a value, or none, whatever it is looked for in. -/
theorem find_isOk : (o : Operand) → o.Usable → ∃ v, o.find kind locale now record env = .ok v
  | ⟨origin, steps⟩, h => by
    obtain ⟨v, hv⟩ := findOrigin_isOk origin h.1
    obtain ⟨ready, hready⟩ := (Pipeline.ready_isOk_iff steps).mpr h.2
    simp only [find, hv, hready]
    cases steps <;> exact ⟨_, rfl⟩

theorem findOrigin_isOk : (o : Origin) → UsableOrigin o →
    ∃ v, findOrigin kind locale now record env o = .ok v
  | .path text every, h => by
    obtain ⟨p, hp⟩ := h
    rw [findOrigin, hp]
    exact ⟨_, rfl⟩
  | .range inner, h => by
    obtain ⟨v, hv⟩ := find_isOk inner h
    rw [findOrigin, hv]
    exact ⟨_, rfl⟩
  | .between low high, h => by
    obtain ⟨l, hl⟩ := findBound_isOk low h.1
    obtain ⟨u, hu⟩ := findBound_isOk high h.2
    rw [findOrigin, hl, hu]
    exact ⟨_, rfl⟩
  | .record, _ | .literal _, _ | .day _, _ | .env _, _ => ⟨_, rfl⟩

theorem findBound_isOk : (o : Option Operand) → UsableBound o →
    ∃ v, findBound kind locale now record env o = .ok v
  | none, _ => ⟨none, rfl⟩
  | some o, h => find_isOk o h
end

variable {kind locale now record env}

mutual
/-- What finds something, even if it is nothing, is usable. -/
theorem usable_of_find : (o : Operand) → ∀ {v : Option Json},
    o.find kind locale now record env = .ok v → o.Usable
  | ⟨origin, steps⟩, v, h => by
    rw [find] at h
    obtain ⟨w, hw, h⟩ := bind_eq_ok h
    refine ⟨usableOrigin_of_find origin hw, ?_⟩
    cases steps with
    | nil => exact fun _ hs => absurd hs List.not_mem_nil
    | cons s rest =>
      obtain ⟨ready, hready, -⟩ := bind_eq_ok h
      exact (Pipeline.ready_isOk_iff (s :: rest)).mp ⟨ready, hready⟩

theorem usableOrigin_of_find : (o : Origin) → ∀ {v : Option Json},
    findOrigin kind locale now record env o = .ok v → UsableOrigin o
  | .path text every, v, h => by
    rw [findOrigin] at h
    obtain ⟨p, hp, -⟩ := bind_eq_ok h
    exact ⟨p, hp⟩
  | .range inner, v, h => by
    rw [findOrigin] at h
    obtain ⟨w, hw, -⟩ := bind_eq_ok h
    exact usable_of_find inner hw
  | .between low high, v, h => by
    rw [findOrigin] at h
    obtain ⟨l, hl, h⟩ := bind_eq_ok h
    obtain ⟨u, hu, -⟩ := bind_eq_ok h
    exact ⟨usable_of_findBound low hl, usable_of_findBound high hu⟩
  | .record, _, _ | .literal _, _, _ | .day _, _, _ | .env _, _, _ => trivial

theorem usable_of_findBound : (o : Option Operand) → ∀ {v : Option Json},
    findBound kind locale now record env o = .ok v → UsableBound o
  | none, _, _ => trivial
  | some o, _, h => usable_of_find o h
end

end Find

end Operand

end Verdict
