import Verdict.Proofs.Json.Members
import Verdict.Step.Basic

/-!
# Plain forms of steps

Reading the plain form of a step gives the step back: parameters that are not given are left out
when it is written and missing when it is read.
-/

namespace Verdict

namespace Action

variable {fields : Members Json} {name key : String}

/-! ## Members that may be missing -/

@[simp]
theorem value?_optional (o : Option Json) :
    Members.value? name (optional key o) = if key = name then o else none := by
  cases o with
  | none => simp [optional, Members.value?]
  | some v => simp [optional, Members.value?]

@[simp]
theorem reverse_optional (o : Option Json) : (optional key o).reverse = optional key o := by
  cases o <;> rfl

theorem text?_eq {o : Option String} (h : fields.value? name = o.map .str) :
    text? fields name = .ok o := by
  rw [text?, h]
  cases o <;> rfl

theorem int?_eq {low high : Int} {o : Option Int} (h : fields.value? name = o.map .ofInt)
    (hbounds : ∀ n ∈ o, low ≤ n ∧ n ≤ high) : int? fields name low high = .ok o := by
  rw [int?, h]
  cases o with
  | none => rfl
  | some n => exact if_pos (hbounds n rfl)

theorem index?_eq {o : Option Int64} (h : fields.value? name = (o.map Int64.toInt).map .ofInt) :
    index? fields name = .ok o := by
  rw [index?, int?_eq h]
  · cases o with
    | none => rfl
    | some n => simp [Except.map]
  · intro n hn
    obtain ⟨i, -, rfl⟩ := Option.map_eq_some_iff.mp hn
    have hlow := Int64.le_toInt i
    have hhigh := Int64.toInt_lt i
    simp only [Word.signedLimit]
    omega

theorem count?_eq {o : Option UInt64}
    (h : fields.value? name = (o.map fun n => (n.toNat : Int)).map .ofInt) :
    count? fields name = .ok o := by
  rw [count?, int?_eq h]
  · cases o with
    | none => rfl
    | some n => simp [Except.map]
  · intro n hn
    obtain ⟨i, -, rfl⟩ := Option.map_eq_some_iff.mp hn
    have hhigh := UInt64.toNat_lt i
    simp only [Word.unsignedLimit]
    omega

/-! ## Actions -/

/-- Among members that agree with the parameters of an action, the action is found again. -/
theorem ofParameters_kind {a : Action}
    (h : ∀ name, name ≠ "type" → name ≠ "all" →
      fields.value? name = Members.value? name a.parameters.reverse) :
    ofParameters a.kind fields = .ok a := by
  cases a with
  | add v | subtract v | multiply v | divide v =>
    have hvalue := h "value" (by decide) (by decide)
    simp [ofParameters, kind, hvalue, parameters, Members.value?]
  | regexp pattern replacement =>
    have hpattern : text? fields "pattern" = .ok pattern :=
      text?_eq (by simp [h, parameters, optionalText, Members.value?_append])
    have hreplace : text? fields "replace" = .ok replacement :=
      text?_eq (by simp [h, parameters, optionalText, Members.value?_append])
    simp only [ofParameters, kind, hpattern, hreplace]
    rfl
  | get path | collect path =>
    have hpath := h "path" (by decide) (by decide)
    simp only [ofParameters, kind, requiredText, hpath, parameters]
    rfl
  | split delimiter =>
    have hdelimiter : text? fields "delimiter" = .ok delimiter :=
      text?_eq (by simp [h, parameters, optionalText])
    simp only [ofParameters, kind, hdelimiter]
    rfl
  | slice start stop =>
    have hstart : index? fields "start" = .ok start :=
      index?_eq (by simp [h, parameters, optionalInt, Members.value?_append])
    have hstop : index? fields "end" = .ok stop :=
      index?_eq (by simp [h, parameters, optionalInt, Members.value?_append])
    simp only [ofParameters, kind, hstart, hstop]
    rfl
  | text locale least most =>
    have hlocale : text? fields "locale" = .ok locale :=
      text?_eq (by simp [h, parameters, optionalText, optionalInt, Members.value?_append])
    have hleast : count? fields "minimumFractionDigits" = .ok least :=
      count?_eq (by simp [h, parameters, optionalText, optionalInt, Members.value?_append])
    have hmost : count? fields "maximumFractionDigits" = .ok most :=
      count?_eq (by simp [h, parameters, optionalText, optionalInt, Members.value?_append])
    simp only [ofParameters, kind, hlocale, hleast, hmost]
    rfl
  | date format =>
    have hformat : text? fields "format" = .ok format :=
      text?_eq (by simp [h, parameters, optionalText])
    simp only [ofParameters, kind, hformat]
    rfl
  | table entries =>
    have htable := h "table" (by decide) (by decide)
    simp [ofParameters, kind, htable, parameters, Members.value?]
  | measurement assume target =>
    have hassume : text? fields "assume" = .ok assume :=
      text?_eq (by simp [h, parameters, optionalText, Members.value?_append])
    have htarget : text? fields "target" = .ok target :=
      text?_eq (by simp [h, parameters, optionalText, Members.value?_append])
    simp only [ofParameters, kind, hassume, htarget]
    rfl
  | custom code =>
    have hcode := h "code" (by decide) (by decide)
    simp [ofParameters, kind, hcode, parameters, Members.value?]
  | _ => rfl

theorem kind_mem_kinds (a : Action) : kinds.contains a.kind = true := by
  cases a <;> rfl

theorem raise_trim_kind (a : Action) : Text.raiseAscii (Text.trim a.kind) = a.kind := by
  have hall : ∀ k ∈ kinds, Text.raiseAscii (Text.trim k) = k := by
    decide
  exact hall _ (List.contains_iff_mem.mp a.kind_mem_kinds)

end Action

namespace Step

def members (s : Step) : Members Json :=
  .gather (("type", .str s.action.kind) :: s.action.parameters ++
    if s.whole then [("all", .bool true)] else [])

def reserved : List String :=
  ["type", "kind", "all", "appliesToWholeSet"]

theorem value?_parameters_of_reserved {name : String} (h : name ∈ reserved) (a : Action) :
    Members.value? name a.parameters.reverse = none := by
  have hname : name = "type" ∨ name = "kind" ∨ name = "all" ∨ name = "appliesToWholeSet" := by
    simpa [reserved] using h
  rcases hname with rfl | rfl | rfl | rfl <;> cases a <;>
    simp [Action.parameters, Action.optionalText, Action.optionalInt, Members.value?_append,
      Members.value?_cons, Members.value?]

theorem value?_members (s : Step) (name : String) :
    s.members.value? name =
      if name = "all" then (if s.whole then some (.bool true) else none)
      else if name = "type" then some (.str s.action.kind)
      else Members.value? name s.action.parameters.reverse := by
  rw [members, Members.value?_gather, List.reverse_append, List.reverse_cons,
    Members.value?_append, Members.value?_append]
  by_cases hall : name = "all"
  · subst hall
    rw [value?_parameters_of_reserved (by decide)]
    cases s.whole <;> rfl
  · have hwhole : Members.value? name
        (if s.whole then [("all", Json.bool true)] else []).reverse = none := by
      cases s.whole with
      | false => rfl
      | true => exact if_neg (Ne.symm hall)
    rw [hwhole, if_neg hall]
    by_cases htype : name = "type"
    · subst htype
      rw [value?_parameters_of_reserved (by decide)]
      rfl
    · simp [Members.value?, htype, Ne.symm htype]

theorem ofJson_toJson (s : Step) : ofJson s.toJson = .ok s := by
  have hkind : either s.members "type" "kind" = some (.str s.action.kind) := by
    rw [either, value?_members]
    rfl
  have hwhole : (either s.members "all" "appliesToWholeSet").any Json.truthy = s.whole := by
    have hother : s.members.value? "appliesToWholeSet" = none := by
      rw [value?_members, if_neg (by decide), if_neg (by decide),
        value?_parameters_of_reserved (by decide)]
    rw [either, hother, value?_members, if_pos rfl]
    cases s.whole <;> rfl
  have haction : Action.ofParameters s.action.kind s.members = .ok s.action :=
    Action.ofParameters_kind fun name htype hall => by
      rw [value?_members, if_neg hall, if_neg htype]
  change ofJson (.obj s.members) = .ok s
  simp only [ofJson, hkind, Action.raise_trim_kind, Action.kind_mem_kinds, hwhole, haction]
  rfl

end Step

end Verdict
