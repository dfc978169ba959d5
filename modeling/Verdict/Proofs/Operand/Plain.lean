import Verdict.Operand.Basic
import Verdict.Proofs.Step.Plain

/-!
# Plain forms of operands

Reading the plain form of an operand gives the operand back.  The form has no tag, so the members
alone have to tell the origin: each origin leaves out the members that those before it in the
order of inference are known by.
-/

namespace Verdict.Operand

/-! ## Members -/

def fields : Operand → Members Json
  | ⟨origin, steps⟩ =>
    .gather (members origin ++
      if steps.isEmpty then [] else [("mutate", .arr (steps.map Step.toJson))])

theorem toJson_eq (o : Operand) : o.toJson = .obj o.fields := by
  obtain ⟨origin, steps⟩ := o
  rw [toJson]
  rfl

theorem value?_mutate_members (origin : Origin) :
    Members.value? "mutate" (members origin).reverse = none := by
  cases origin with
  | path text every => cases every <;> rfl
  | _ => rfl

theorem value?_fields {name : String} (h : name ≠ "mutate") (origin : Origin)
    (steps : List Step) :
    (fields ⟨origin, steps⟩).value? name = Members.value? name (members origin).reverse := by
  rw [fields, Members.value?_gather, List.reverse_append, Members.value?_append]
  cases steps with
  | nil => rfl
  | cons s rest => simp [Members.value?, Ne.symm h]

theorem mapM_ofJson (steps : List Step) :
    (steps.map Step.toJson).mapM Step.ofJson = .ok steps := by
  induction steps with
  | nil => rfl
  | cons s rest ih =>
    rw [List.map_cons, List.mapM_cons, Step.ofJson_toJson, ih]
    rfl

theorem readSteps_fields (origin : Origin) (steps : List Step) :
    readSteps ((fields ⟨origin, steps⟩).value? "mutate") = .ok steps := by
  rw [fields, Members.value?_gather, List.reverse_append, Members.value?_append,
    value?_mutate_members]
  cases steps with
  | nil => rfl
  | cons s rest => exact mapM_ofJson (s :: rest)

/-! ## Inference -/

section Plan

variable {ms : Members Json}

theorem plan_of_untagged (h : textAt ms "type" = none) : plan ms = .ok (inferredPlan ms) := by
  rw [plan, h]
  rfl

theorem inferredPlan_of_between {bounds : List (String × Json)}
    (h : ms.value? "between" = some (.obj bounds)) :
    ∃ hle, inferredPlan ms = .extent (.obj bounds) hle := by
  unfold inferredPlan
  split
  · rename_i bounds' h'
    rw [h] at h'
    cases h'
    exact ⟨Nat.le_of_lt (value?_lt h), rfl⟩
  · rename_i hother
    exact absurd h (hother bounds)

def single (ms : Members Json) : Origin :=
  match textAt ms "env", dayAt ms, textAt ms "path", textAt ms "get", textAt ms "collect",
    ms.value? "value" with
  | some name, _, _, _, _, _ => .env name
  | none, some d, _, _, _, _ => .day d
  | none, none, some p, _, _, _ => .path p (every ms)
  | none, none, none, some p, _, _ => .path p false
  | none, none, none, none, some p, _ => .path p true
  | none, none, none, none, none, some v => .literal v
  | none, none, none, none, none, none => .record

theorem inferredPlan_of_single (h : ms.value? "between" = none) :
    inferredPlan ms = .origin (single ms) := by
  unfold inferredPlan
  split
  · rename_i h'
    rw [h] at h'
    cases h'
  · rw [single]
    split <;> simp_all

theorem ofJson_of_single (htype : textAt ms "type" = none) (hbetween : ms.value? "between" = none)
    {steps : List Step} (hsteps : readSteps (ms.value? "mutate") = .ok steps) :
    ofJson (.obj ms) = .ok ⟨single ms, steps⟩ := by
  rw [ofJson, plan_of_untagged htype, inferredPlan_of_single hbetween, hsteps]
  rfl

theorem ofJson_of_between {bounds : List (String × Json)} {origin : Origin} {steps : List Step}
    (htype : textAt ms "type" = none) (hbetween : ms.value? "between" = some (.obj bounds))
    (hextent : readExtent (.obj bounds) = .ok origin)
    (hsteps : readSteps (ms.value? "mutate") = .ok steps) :
    ofJson (.obj ms) = .ok ⟨origin, steps⟩ := by
  obtain ⟨hle, hplan⟩ := inferredPlan_of_between hbetween
  rw [ofJson, plan_of_untagged htype, hplan, hsteps]
  change (do let origin ← readExtent (.obj bounds); .ok (Operand.mk origin steps)) = Except.ok _
  rw [hextent]
  rfl

end Plan

theorem ofName?_name (d : RelativeDay) : RelativeDay.ofName? d.name = some d := by
  cases d <;> decide

/-- An origin without bounds is told by its members. -/
theorem single_fields {origin : Origin} (steps : List Step)
    (h : Members.value? "between" (members origin).reverse = none) :
    single (fields ⟨origin, steps⟩) = origin := by
  have hvalue : ∀ name, name ≠ "mutate" → (fields ⟨origin, steps⟩).value? name =
      Members.value? name (members origin).reverse :=
    fun name hname => value?_fields hname origin steps
  cases origin with
  | path text every =>
    cases every <;> simp [single, dayAt, textAt, hvalue, members, Members.value?, Operand.every,
      Json.text?, Json.truthy]
  | day d => simp [single, dayAt, textAt, hvalue, members, Members.value?, Json.text?, ofName?_name]
  | range inner => simp [members, Members.value?] at h
  | between low high => simp [members, Members.value?] at h
  | _ => simp [single, dayAt, textAt, hvalue, members, Members.value?, Json.text?]

/-! ## Extents -/

theorem readBound_eq (v : Json) (name : String) :
    readBound v name =
      match v.member? name with
      | none | some .null => .ok none
      | some b => (ofJson b).map some := by
  unfold readBound
  split <;> rename_i h <;> rw [h]
  split <;> simp_all

theorem readExtent_eq (v : Json) :
    readExtent v =
      match v.member? "range" with
      | none | some .null => readBounds v
      | some range => (ofJson range).map .range := by
  unfold readExtent
  split <;> rename_i h <;> rw [h]
  split <;> simp_all

def bounds (low high : Option Operand) : Members Json :=
  .gather (bound "left" low ++ bound "right" high)

theorem bound_eq (name : String) (o : Option Operand) :
    bound name o = Action.optional name (o.map toJson) := by
  cases o <;> rfl

theorem value?_bounds (low high : Option Operand) (name : String) :
    (bounds low high).value? name =
      if name = "right" then high.map toJson
      else if name = "left" then low.map toJson
      else none := by
  rw [bounds, Members.value?_gather, List.reverse_append, Members.value?_append, bound_eq,
    bound_eq, Action.reverse_optional, Action.reverse_optional, Action.value?_optional,
    Action.value?_optional]
  by_cases hright : name = "right"
  · subst hright
    simp
  · by_cases hleft : name = "left"
    · subst hleft
      simp
    · simp [hright, hleft, Ne.symm hright, Ne.symm hleft]

theorem readExtent_range {inner : Operand} (h : ofJson inner.toJson = .ok inner) :
    readExtent (.object [("range", inner.toJson)]) = .ok (.range inner) := by
  have hmember : (Json.object [("range", inner.toJson)]).member? "range" = some inner.toJson := rfl
  rw [readExtent_eq, hmember]
  rw [toJson_eq] at h ⊢
  simp only [h]
  rfl

theorem readBound_bounds {low high o : Option Operand} {name : String}
    (hname : (bounds low high).value? name = o.map toJson)
    (ho : o.map (fun b => ofJson b.toJson) = o.map .ok) :
    readBound (.obj (bounds low high)) name = .ok o := by
  have hmember : (Json.obj (bounds low high)).member? name = o.map toJson := hname
  rw [readBound_eq, hmember]
  cases o with
  | none => rfl
  | some b =>
    have hb : ofJson b.toJson = .ok b := Option.some.inj ho
    rw [toJson_eq] at hb
    simp only [Option.map_some, toJson_eq, hb]
    rfl

theorem readExtent_bounds {low high : Option Operand}
    (hlow : low.map (fun b => ofJson b.toJson) = low.map .ok)
    (hhigh : high.map (fun b => ofJson b.toJson) = high.map .ok) :
    readExtent (.obj (bounds low high)) = .ok (.between low high) := by
  have hmember : (Json.obj (bounds low high)).member? "range" = none := by
    rw [Json.member?, value?_bounds, if_neg (by decide), if_neg (by decide)]
  have hleft : readBound (.obj (bounds low high)) "left" = .ok low :=
    readBound_bounds (by rw [value?_bounds, if_neg (by decide), if_pos rfl]) hlow
  have hright : readBound (.obj (bounds low high)) "right" = .ok high :=
    readBound_bounds (by rw [value?_bounds, if_pos rfl]) hhigh
  rw [readExtent_eq, hmember]
  simp only [readBounds, hleft, hright]
  rfl

/-! ## Round trip -/

mutual
/-- The plain form of an operand reads as that operand, whatever its values are. -/
theorem ofJson_toJson : (o : Operand) → ofJson o.toJson = .ok o
  | ⟨origin, steps⟩ => by
    rw [toJson_eq]
    have hsteps := readSteps_fields origin steps
    have htype : textAt (fields ⟨origin, steps⟩) "type" = none := by
      rw [textAt, value?_fields (by decide)]
      cases origin with
      | path text every => cases every <;> rfl
      | _ => rfl
    have hbetween : (fields ⟨origin, steps⟩).value? "between" = _ :=
      value?_fields (by decide) origin steps
    match origin with
    | .range inner =>
      exact ofJson_of_between htype hbetween (readExtent_range (ofJson_toJson inner)) hsteps
    | .between low high =>
      exact ofJson_of_between htype hbetween
        (readExtent_bounds (ofJson_toJson? low) (ofJson_toJson? high)) hsteps
    | .record | .literal _ | .day _ | .env _ =>
      rw [ofJson_of_single htype hbetween hsteps, single_fields steps rfl]
    | .path text every =>
      have hnone : Members.value? "between" (members (.path text every)).reverse = none := by
        cases every <;> rfl
      rw [ofJson_of_single htype (hbetween.trans hnone) hsteps, single_fields steps hnone]

theorem ofJson_toJson? : (o : Option Operand) →
    o.map (fun b => ofJson b.toJson) = o.map .ok
  | none => rfl
  | some b => congrArg some (ofJson_toJson b)
end

end Verdict.Operand
