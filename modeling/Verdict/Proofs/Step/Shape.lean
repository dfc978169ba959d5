import Verdict.Proofs.Report
import Verdict.Step.Basic

/-!
# Which steps can be read

A step can be read if it is an object that names one of the kinds and gives each parameter of that
kind a value of its type.  A name that is no kind is reported.
-/

namespace Verdict

/-! ## Parameters -/

inductive ParameterType where
  | text
  | index
  | count
  | entries

/-- What may stand for a parameter besides a value of its type. -/
inductive Absence where
  | none
  | missing
  | missingOrNull

structure Parameter where
  name : String
  type : ParameterType
  absence : Absence

namespace ParameterType

/-- The values of a type. Indices have 64 bits and a sign, counts 64 bits. -/
def Holds : ParameterType → Json → Prop
  | text, v => ∃ s, v = .str s
  | index, v => ∃ n : Int, v = .ofInt n ∧ -Word.signedLimit ≤ n ∧ n < Word.signedLimit
  | count, v => ∃ n : Int, v = .ofInt n ∧ 0 ≤ n ∧ n < Word.unsignedLimit
  | entries, v => ∃ members, v = .obj members

end ParameterType

namespace Parameter

/-- What is given for a parameter, if anything, is what it may be. -/
def Fits (p : Parameter) : Option Json → Prop
  | none => p.absence ≠ .none
  | some v => p.type.Holds v ∨ p.absence = .missingOrNull ∧ v = .null

end Parameter

/-- Work that goes on in the same way whatever its value is. -/
theorem bind_isOk_iff {α β : Type} {x : Except Fault α} {k : α → Except Fault β} {P : Prop}
    (hk : ∀ a, (∃ b, k a = .ok b) ↔ P) : (∃ b, x >>= k = .ok b) ↔ (∃ a, x = .ok a) ∧ P := by
  cases x with
  | error f => exact iff_of_false nofun nofun
  | ok a => exact (hk a).trans ⟨fun h => ⟨⟨a, rfl⟩, h⟩, And.right⟩

namespace Action

variable {fields : Members Json} {name : String}

theorem text?_isOk_iff : (∃ o, text? fields name = .ok o) ↔
    Parameter.Fits ⟨name, .text, .missingOrNull⟩ (fields.value? name) := by
  rw [text?]
  rcases fields.value? name with _ | v
  · exact iff_of_true ⟨none, rfl⟩ nofun
  · cases v with
    | null => exact iff_of_true ⟨none, rfl⟩ (.inr ⟨rfl, rfl⟩)
    | str s => exact iff_of_true ⟨some s, rfl⟩ (.inl ⟨s, rfl⟩)
    | bool | num | arr | obj => exact iff_of_false nofun (by rintro (⟨s, h⟩ | ⟨-, h⟩) <;> cases h)

theorem int?_isOk_iff {low high : Int} : (∃ o, int? fields name low high = .ok o) ↔
    fields.value? name = none ∨ fields.value? name = some .null ∨
      ∃ n : Int, fields.value? name = some (.ofInt n) ∧ low ≤ n ∧ n ≤ high := by
  rw [int?]
  rcases fields.value? name with _ | v
  · exact iff_of_true ⟨none, rfl⟩ (.inl rfl)
  · cases v with
    | null => exact iff_of_true ⟨none, rfl⟩ (.inr (.inl rfl))
    | num n =>
      cases n with
      | int n =>
        dsimp only
        split
        · rename_i h
          exact iff_of_true ⟨some n, rfl⟩ (.inr (.inr ⟨n, rfl, h⟩))
        · rename_i h
          refine iff_of_false nofun ?_
          rintro (h' | h' | ⟨m, h', hm⟩)
          · cases h'
          · cases h'
          · cases h'
            exact h hm
      | float x finite => exact iff_of_false nofun (by rintro (h | h | ⟨m, h, -⟩) <;> cases h)
    | bool | str | arr | obj =>
      exact iff_of_false nofun (by rintro (h | h | ⟨m, h, -⟩) <;> cases h)

theorem fits_of_int {type : ParameterType} {low high : Int}
    (htype : ∀ v, type.Holds v ↔ ∃ n : Int, v = .ofInt n ∧ low ≤ n ∧ n ≤ high) :
    Parameter.Fits ⟨name, type, .missingOrNull⟩ (fields.value? name) ↔
      ∃ o, int? fields name low high = .ok o := by
  rw [int?_isOk_iff]
  rcases fields.value? name with _ | v
  · exact iff_of_true nofun (.inl rfl)
  · simp [Parameter.Fits, htype, or_comm]

theorem index?_isOk_iff : (∃ o, index? fields name = .ok o) ↔
    Parameter.Fits ⟨name, .index, .missingOrNull⟩ (fields.value? name) := by
  rw [index?, map_isOk_iff, fits_of_int]
  intro v
  simp only [ParameterType.Holds, Word.signedLimit]
  exact exists_congr fun n => and_congr_right fun _ => by omega

theorem count?_isOk_iff : (∃ o, count? fields name = .ok o) ↔
    Parameter.Fits ⟨name, .count, .missingOrNull⟩ (fields.value? name) := by
  rw [count?, map_isOk_iff, fits_of_int]
  intro v
  simp only [ParameterType.Holds, Word.unsignedLimit]
  exact exists_congr fun n => and_congr_right fun _ => by omega

theorem requiredText_isOk_iff : (∃ s, requiredText fields name = .ok s) ↔
    Parameter.Fits ⟨name, .text, .none⟩ (fields.value? name) := by
  rw [requiredText]
  rcases fields.value? name with _ | v
  · exact iff_of_false nofun (fun h => h rfl)
  · cases v with
    | str s => exact iff_of_true ⟨s, rfl⟩ (.inl ⟨s, rfl⟩)
    | null | bool | num | arr | obj =>
      exact iff_of_false nofun (by rintro (⟨s, h⟩ | ⟨h, -⟩) <;> cases h)

/-! ## Kinds -/

/-- The parameters of each kind that have a type; any value will do for the operand of the kinds
that calculate. -/
def signature : String → List Parameter
  | "REGEXP" => [⟨"pattern", .text, .missingOrNull⟩, ⟨"replace", .text, .missingOrNull⟩]
  | "GET" => [⟨"path", .text, .none⟩]
  | "COLLECT" => [⟨"path", .text, .none⟩]
  | "SPLIT" => [⟨"delimiter", .text, .missingOrNull⟩]
  | "SLICE" => [⟨"start", .index, .missingOrNull⟩, ⟨"end", .index, .missingOrNull⟩]
  | "STRING" =>
    [⟨"locale", .text, .missingOrNull⟩, ⟨"minimumFractionDigits", .count, .missingOrNull⟩,
      ⟨"maximumFractionDigits", .count, .missingOrNull⟩]
  | "DATE" => [⟨"format", .text, .missingOrNull⟩]
  | "TABLE" => [⟨"table", .entries, .missing⟩]
  | "MEASUREMENT" => [⟨"assume", .text, .missingOrNull⟩, ⟨"target", .text, .missingOrNull⟩]
  | "CUSTOM" => [⟨"code", .text, .missing⟩]
  | _ => []

theorem table_isOk_iff : (∃ a, ofParameters "TABLE" fields = .ok a) ↔
    Parameter.Fits ⟨"table", .entries, .missing⟩ (fields.value? "table") := by
  cases hgiven : fields.value? "table" with
  | none => exact iff_of_true ⟨table [], by simp only [ofParameters, hgiven]⟩ nofun
  | some v =>
    cases v with
    | obj entries =>
      exact iff_of_true ⟨table entries, by simp only [ofParameters, hgiven]⟩ (.inl ⟨entries, rfl⟩)
    | null | bool | num | arr | str =>
      have hread : ofParameters "TABLE" fields = unreadable := by simp only [ofParameters, hgiven]
      rw [hread]
      exact iff_of_false nofun (by rintro (⟨s, h⟩ | ⟨h, -⟩) <;> cases h)

theorem custom_isOk_iff : (∃ a, ofParameters "CUSTOM" fields = .ok a) ↔
    Parameter.Fits ⟨"code", .text, .missing⟩ (fields.value? "code") := by
  cases hgiven : fields.value? "code" with
  | none => exact iff_of_true ⟨custom "", by simp only [ofParameters, hgiven]⟩ nofun
  | some v =>
    cases v with
    | str s => exact iff_of_true ⟨custom s, by simp only [ofParameters, hgiven]⟩ (.inl ⟨s, rfl⟩)
    | null | bool | num | arr | obj =>
      have hread : ofParameters "CUSTOM" fields = unreadable := by simp only [ofParameters, hgiven]
      rw [hread]
      exact iff_of_false nofun (by rintro (⟨s, h⟩ | ⟨h, -⟩) <;> cases h)

/-- An action of a kind can be read exactly if its parameters fit. -/
theorem ofParameters_isOk_iff {kind : String} (hkind : kind ∈ kinds) :
    (∃ a, ofParameters kind fields = .ok a) ↔
      ∀ p ∈ signature kind, p.Fits (fields.value? p.name) := by
  have hplain : ∀ a : Action, (∃ b, (.ok a : Read Action) = .ok b) ↔
      ∀ p ∈ ([] : List Parameter), p.Fits (fields.value? p.name) :=
    fun a => iff_of_true ⟨a, rfl⟩ fun _ h => nomatch h
  have hreturn : ∀ a : Action, (∃ b, (return a : Read Action) = .ok b) ↔ True :=
    fun a => iff_of_true ⟨a, rfl⟩ trivial
  have hone : ∀ p : Parameter, (∀ q ∈ [p], q.Fits (fields.value? q.name)) ↔
      p.Fits (fields.value? p.name) ∧ True :=
    fun p => List.forall_mem_singleton.trans (iff_of_eq (and_true _)).symm
  simp only [kinds, List.mem_cons, List.not_mem_nil, or_false] at hkind
  rcases hkind with rfl | rfl | rfl | rfl | rfl | rfl | rfl | rfl | rfl | rfl | rfl | rfl | rfl |
    rfl | rfl | rfl | rfl | rfl | rfl | rfl | rfl | rfl | rfl | rfl | rfl | rfl | rfl
  any_goals exact hplain _
  · rw [signature, List.forall_mem_cons, hone, ← text?_isOk_iff, ← text?_isOk_iff]
    exact bind_isOk_iff fun _ => bind_isOk_iff fun _ => hreturn _
  · rw [signature, hone, ← requiredText_isOk_iff]
    exact bind_isOk_iff fun _ => hreturn _
  · rw [signature, hone, ← requiredText_isOk_iff]
    exact bind_isOk_iff fun _ => hreturn _
  · rw [signature, hone, ← text?_isOk_iff]
    exact bind_isOk_iff fun _ => hreturn _
  · rw [signature, List.forall_mem_cons, hone, ← index?_isOk_iff, ← index?_isOk_iff]
    exact bind_isOk_iff fun _ => bind_isOk_iff fun _ => hreturn _
  · rw [signature, List.forall_mem_cons, List.forall_mem_cons, hone, ← text?_isOk_iff,
      ← count?_isOk_iff, ← count?_isOk_iff]
    exact bind_isOk_iff fun _ => bind_isOk_iff fun _ => bind_isOk_iff fun _ => hreturn _
  · rw [signature, hone, ← text?_isOk_iff]
    exact bind_isOk_iff fun _ => hreturn _
  · rw [signature, List.forall_mem_singleton]
    exact table_isOk_iff
  · rw [signature, List.forall_mem_cons, hone, ← text?_isOk_iff, ← text?_isOk_iff]
    exact bind_isOk_iff fun _ => bind_isOk_iff fun _ => hreturn _
  · rw [signature, List.forall_mem_singleton]
    exact custom_isOk_iff

end Action

/-! ## Steps -/

namespace Step

variable {v : Json} {fields : Members Json} {name : String}

/-- An object that names one of the kinds, in any case and between blanks, and gives its parameters
what they may be. -/
def WellFormed (v : Json) : Prop :=
  ∃ fields name, v = .obj fields ∧ either fields "type" "kind" = some (.str name) ∧
    Text.raiseAscii (Text.trim name) ∈ Action.kinds ∧
    ∀ p ∈ Action.signature (Text.raiseAscii (Text.trim name)),
      p.Fits (Members.value? p.name fields)

/-- An object that gives something else for the kind, with the name that it is reported by. -/
inductive NamesUnknown : Json → String → Prop
  | text {fields : Members Json} {name : String}
    (given : either fields "type" "kind" = some (.str name))
    (unknown : Text.raiseAscii (Text.trim name) ∉ Action.kinds) :
    NamesUnknown (.obj fields) (Text.raiseAscii (Text.trim name))
  | other {fields : Members Json} {v : Json} (given : either fields "type" "kind" = some v)
    (unknown : ∀ name, v ≠ .str name) : NamesUnknown (.obj fields) v.text

theorem ofJson_of_known (hkind : either fields "type" "kind" = some (.str name))
    (hmem : Text.raiseAscii (Text.trim name) ∈ Action.kinds) : ofJson (.obj fields) =
      (Action.ofParameters (Text.raiseAscii (Text.trim name)) fields).map
        (⟨·, (either fields "all" "appliesToWholeSet").any Json.truthy⟩) := by
  simp only [ofJson, hkind, List.contains_iff_mem.mpr hmem]
  cases Action.ofParameters (Text.raiseAscii (Text.trim name)) fields <;> rfl

theorem ofJson_of_namesUnknown (h : NamesUnknown v name) :
    ofJson v = .error (.unknownStep name) := by
  cases h with
  | text given unknown =>
    have hcontains : Action.kinds.contains _ = false :=
      Bool.eq_false_iff.mpr (mt List.contains_iff_mem.mp unknown)
    simp only [ofJson, given, hcontains]
    rfl
  | other given unknown => simp only [ofJson, given]

theorem not_wellFormed_of_namesUnknown (h : NamesUnknown v name) : ¬WellFormed v := by
  rintro ⟨fields, kind, rfl, hkind, hmem, -⟩
  cases h with
  | text given unknown =>
    rw [given] at hkind
    cases hkind
    exact unknown hmem
  | other given unknown =>
    rw [given] at hkind
    cases hkind
    exact unknown _ rfl

/-- A step can be read exactly if it is well formed. -/
theorem ofJson_isOk_iff (v : Json) : (∃ s, ofJson v = .ok s) ↔ WellFormed v := by
  have hnever : ∀ {f : Fault}, ofJson v = .error f → ¬WellFormed v →
      ((∃ s, ofJson v = .ok s) ↔ WellFormed v) := by
    intro f hf hnot
    rw [hf]
    exact iff_of_false nofun hnot
  cases v with
  | obj fields =>
    have hunknown : ∀ {name}, NamesUnknown (.obj fields) name →
        ((∃ s, ofJson (.obj fields) = .ok s) ↔ WellFormed (.obj fields)) :=
      fun h => hnever (ofJson_of_namesUnknown h) (not_wellFormed_of_namesUnknown h)
    cases hgiven : either fields "type" "kind" with
    | none =>
      have hmissing : ofJson (.obj fields) =
          .error (.unreadableStep (.kindMissing (Json.obj fields).text)) := by
        simp only [ofJson, hgiven]
      refine hnever hmissing ?_
      rintro ⟨fields', name, hfields, hname, -⟩
      cases hfields
      rw [hgiven] at hname
      cases hname
    | some w =>
      cases w with
      | str name =>
        by_cases hmem : Text.raiseAscii (Text.trim name) ∈ Action.kinds
        · rw [ofJson_of_known hgiven hmem, map_isOk_iff, Action.ofParameters_isOk_iff hmem]
          constructor
          · exact fun h => ⟨fields, name, rfl, hgiven, hmem, h⟩
          · rintro ⟨fields', name', hfields, hname, -, h⟩
            cases hfields
            rw [hgiven] at hname
            cases hname
            exact h
        · exact hunknown (.text hgiven hmem)
      | null | bool | num | arr | obj =>
        exact hunknown (.other hgiven fun name h => by cases h)
  | null | bool | num | str | arr =>
    exact hnever rfl (by rintro ⟨fields, name, h, -⟩; cases h)

end Step

end Verdict
