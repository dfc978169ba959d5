import Verdict.Proofs.Operand.Plain
import Verdict.Proofs.Step.Shape

/-!
# Which operands can be read

An operand can be read if its tag has the member that it needs, the operands inside can be read and
its steps are well formed.  Reading reports the first fault: those of the tag, of the operands
inside and of the steps, in this order.
-/

namespace Verdict.Operand

variable {fields : Members Json} {v w : Json}

/-! ## Parts -/

/-- The tag of an object; its case does not count. -/
def tag (fields : Members Json) : Option String :=
  (textAt fields "type").map Text.raiseAscii

def rangeOf (fields : Members Json) : Option Json :=
  fields.value? "range" <|> (fields.value? "between").bind (·.member? "range")

def given (v : Json) (name : String) : List Json :=
  (v.member? name).toList.filter (!·.isNull)

/-- What is read of an extent: its range, and else those of its bounds that are given. -/
def extentParts (v : Json) : List Json :=
  match v.member? "range" with
  | none | some .null => given v "left" ++ given v "right"
  | some range => [range]

def untaggedParts (fields : Members Json) : List Json :=
  match fields.value? "between" with
  | some (.obj bounds) => extentParts (.obj bounds)
  | _ => []

def nested (fields : Members Json) : List Json :=
  match tag fields with
  | some "RANGE" => (rangeOf fields).toList
  | some "BETWEEN" => extentParts ((fields.value? "between").getD (.obj fields))
  | some "VALUE" | some "PATH" | some "DATE" | some "ENV" | some "PASSTHRU"
  | some "PASSTHROUGH" => []
  | _ => untaggedParts fields

def listed : Option Json → List Json
  | none | some .null => []
  | some (.arr items) => items
  | some v => [v]

structure TagServed (fields : Members Json) : Prop where
  path : tag fields = some "PATH" → ∃ s, fields.value? "path" = some (.str s)
  day : tag fields = some "DATE" →
    ∃ s d, fields.value? "date" = some (.str s) ∧ RelativeDay.ofName? s = some d
  env : tag fields = some "ENV" → ∃ s, fields.value? "env" = some (.str s)
  range : tag fields = some "RANGE" → ∃ v, rangeOf fields = some v

/-- The plain forms that operands are read from. -/
inductive Acceptable : Json → Prop
  | literal {v : Json} (h : ∀ fields, v ≠ .obj fields) : Acceptable v
  | source {fields : Members Json} (tag : TagServed fields)
    (inside : ∀ v ∈ nested fields, Acceptable v)
    (steps : ∀ s ∈ listed (fields.value? "mutate"), Step.WellFormed s) : Acceptable (.obj fields)

/-! ## Plans -/

theorem textAt_eq_some_iff {name s : String} :
    textAt fields name = some s ↔ fields.value? name = some (.str s) := by
  rw [textAt]
  rcases fields.value? name with _ | v
  · exact iff_of_false nofun nofun
  · cases v with
    | str t =>
      change some t = some s ↔ some (Json.str t) = some (.str s)
      rw [Option.some.injEq, Option.some.injEq, Json.str.injEq]
    | null | bool | num | arr | obj => exact iff_of_false nofun nofun

def Plan.reads {whole : Json} : Plan whole → List Json
  | origin _ => []
  | range v _ => [v]
  | extent v _ => extentParts v

def Plan.make {whole : Json} : Plan whole → Except Fault Origin
  | origin o => .ok o
  | range v _ => (ofJson v).map Origin.range
  | extent v _ => readExtent v

theorem rangePlan_eq (fields : Members Json) : (rangePlan fields).map Plan.reads =
    match rangeOf fields with
    | some v => .ok [v]
    | none => malformed fields .rangeMissing := by
  unfold rangePlan
  split
  · rename_i v hv
    have hrange : rangeOf fields = some v := by
      rw [rangeOf, hv]
      rfl
    rw [hrange]
    rfl
  · rename_i hnone
    split
    · rename_i hb
      have hrange : rangeOf fields = none := by
        rw [rangeOf, hnone, hb]
        rfl
      rw [hrange]
      rfl
    · rename_i b hb
      have hrange : rangeOf fields = b.member? "range" := by
        rw [rangeOf, hnone, hb]
        rfl
      split
      · rename_i v hv
        rw [hrange.trans hv]
        rfl
      · rename_i hv
        rw [hrange.trans hv]
        rfl

theorem rangeOf_of_rangePlan {p : Plan (.obj fields)} (h : rangePlan fields = .ok p) :
    ∃ v, rangeOf fields = some v ∧ p.reads = [v] := by
  have heq := rangePlan_eq fields
  rw [h] at heq
  cases hrange : rangeOf fields with
  | none =>
    rw [hrange] at heq
    cases heq
  | some v =>
    rw [hrange] at heq
    exact ⟨v, rfl, Except.ok.inj heq⟩

theorem rangePlan_isOk_iff : (∃ p, rangePlan fields = .ok p) ↔ ∃ v, rangeOf fields = some v := by
  constructor
  · rintro ⟨p, h⟩
    obtain ⟨v, hv, -⟩ := rangeOf_of_rangePlan h
    exact ⟨v, hv⟩
  · rintro ⟨v, hv⟩
    have heq := rangePlan_eq fields
    rw [hv] at heq
    obtain ⟨p, hp, -⟩ := map_eq_ok heq
    exact ⟨p, hp⟩

theorem extentPlan_reads (fields : Members Json) : (extentPlan fields).reads =
    extentParts ((fields.value? "between").getD (.obj fields)) := by
  unfold extentPlan
  split
  · rename_i v h
    have hbounds : (fields.value? "between").getD (.obj fields) = v := by
      rw [h]
      rfl
    rw [hbounds]
    rfl
  · rename_i h
    have hbounds : (fields.value? "between").getD (.obj fields) = .obj fields := by
      rw [h]
      rfl
    rw [hbounds]
    rfl

theorem inferredPlan_reads (fields : Members Json) :
    (inferredPlan fields).reads = untaggedParts fields := by
  by_cases h : ∃ bounds, fields.value? "between" = some (.obj bounds)
  · obtain ⟨bounds, hbounds⟩ := h
    obtain ⟨hle, hplan⟩ := inferredPlan_of_between hbounds
    rw [hplan, untaggedParts, hbounds]
    rfl
  · have hparts : untaggedParts fields = [] := by
      unfold untaggedParts
      split
      · rename_i bounds hbounds
        exact absurd ⟨bounds, hbounds⟩ h
      · rfl
    rw [hparts, inferredPlan]
    split
    · rename_i bounds hbounds
      exact absurd ⟨bounds, hbounds⟩ h
    · split <;> rfl

theorem plan_reads {p : Plan (.obj fields)} (h : plan fields = .ok p) :
    p.reads = nested fields := by
  unfold plan at h
  unfold nested tag
  split at h <;> rename_i htag
  · cases h
    rw [htag]
    rfl
  · split at h <;> cases h
    rw [htag]
    rfl
  · split at h <;> cases h
    rw [htag]
    rfl
  · split at h <;> cases h
    rw [htag]
    rfl
  · obtain ⟨v, hv, hreads⟩ := rangeOf_of_rangePlan h
    rw [htag, hreads]
    simp only [hv, Option.toList_some]
  · cases h
    rw [htag]
    exact extentPlan_reads fields
  · cases h
    rw [htag]
    rfl
  · cases h
    rw [htag]
    rfl
  · cases h
    rw [inferredPlan_reads]
    -- the tag is none of those above
    split <;> first | rfl | contradiction

theorem exists_dayAt_iff : (∃ d, dayAt fields = some d) ↔
    ∃ s d, fields.value? "date" = some (.str s) ∧ RelativeDay.ofName? s = some d := by
  simp only [dayAt, Option.bind_eq_some_iff, textAt_eq_some_iff]
  exact exists_comm.trans Iff.rfl

/-- Nothing inside is read where the tag lacks the member that it needs. -/
theorem nested_of_error {f : Fault} (h : plan fields = .error f) : nested fields = [] := by
  unfold plan at h
  unfold nested tag
  split at h <;> rename_i htag
  · cases h
  · rw [htag]
    rfl
  · rw [htag]
    rfl
  · rw [htag]
    rfl
  · rw [htag]
    cases hrange : rangeOf fields with
    | none => simp only [Option.toList_none]
    | some v =>
      obtain ⟨p, hp⟩ := rangePlan_isOk_iff.mpr ⟨v, hrange⟩
      rw [h] at hp
      cases hp
  · cases h
  · cases h
  · cases h
  · cases h

/-- What is read first fails exactly if the tag lacks the member that it needs. -/
theorem plan_isOk_iff (fields : Members Json) : (∃ p, plan fields = .ok p) ↔ TagServed fields := by
  constructor
  · rintro ⟨p, h⟩
    unfold plan at h
    constructor <;> intro htag <;> unfold tag at htag <;> simp only [htag] at h
    · split at h
      · exact ⟨_, textAt_eq_some_iff.mp ‹_›⟩
      · cases h
    · split at h
      · exact exists_dayAt_iff.mp ⟨_, ‹_›⟩
      · cases h
    · split at h
      · exact ⟨_, textAt_eq_some_iff.mp ‹_›⟩
      · cases h
    · exact rangePlan_isOk_iff.mp ⟨p, h⟩
  · intro h
    unfold plan
    split <;> rename_i htag
    · exact ⟨_, rfl⟩
    · obtain ⟨s, hs⟩ := h.path htag
      rw [textAt_eq_some_iff.mpr hs]
      exact ⟨_, rfl⟩
    · obtain ⟨d, hd⟩ := exists_dayAt_iff.mpr (h.day htag)
      rw [hd]
      exact ⟨_, rfl⟩
    · obtain ⟨s, hs⟩ := h.env htag
      rw [textAt_eq_some_iff.mpr hs]
      exact ⟨_, rfl⟩
    · exact rangePlan_isOk_iff.mpr (h.range htag)
    · exact ⟨_, rfl⟩
    · exact ⟨_, rfl⟩
    · exact ⟨_, rfl⟩
    · exact ⟨_, rfl⟩

/-! ## Faults -/

theorem sizeOf_given {name : String} (h : w ∈ given v name) : sizeOf w < sizeOf v := by
  rw [given] at h
  exact member?_lt (Option.mem_toList.mp (List.mem_of_mem_filter h))

theorem sizeOf_extentParts (h : w ∈ extentParts v) : sizeOf w < sizeOf v := by
  have hbounds : w ∈ given v "left" ++ given v "right" → sizeOf w < sizeOf v :=
    fun h => (List.mem_append.mp h).elim sizeOf_given sizeOf_given
  unfold extentParts at h
  split at h
  · exact hbounds h
  · exact hbounds h
  · rename_i range _ hrange
    rw [List.mem_singleton.mp h]
    exact member?_lt hrange

theorem sizeOf_nested (h : w ∈ nested fields) : sizeOf w < sizeOf (Json.obj fields) := by
  cases hplan : plan fields with
  | error f =>
    rw [nested_of_error hplan] at h
    cases h
  | ok p =>
    rw [← plan_reads hplan] at h
    cases p with
    | origin o => cases h
    | range v smaller => exact List.mem_singleton.mp h ▸ smaller
    | extent v notLarger => exact lt_of_lt_of_le (sizeOf_extentParts h) notLarger

theorem nested_induction {P : Json → Prop} (literal : ∀ v, (∀ fields, v ≠ .obj fields) → P v)
    (source : ∀ fields, (∀ w ∈ nested fields, P w) → P (.obj fields)) (v : Json) : P v := by
  induction hsize : sizeOf v using Nat.strong_induction_on generalizing v with
  | _ n ih =>
    subst hsize
    by_cases hobj : ∃ fields, v = .obj fields
    · obtain ⟨fields, rfl⟩ := hobj
      exact source fields fun w hw => ih _ (sizeOf_nested hw) w rfl
    · exact literal v (not_exists.mp hobj)

/-- All faults of an operand: of its tag, of the operands inside, of its steps. -/
def faults : Json → List Fault
  | .obj fields =>
    faultOf (plan fields) ++
      ((nested fields).attach.flatMap fun v => faults v.1) ++
      (listed (Members.value? "mutate" fields)).flatMap fun s => faultOf (Step.ofJson s)
  | _ => []
  termination_by v => sizeOf v
  decreasing_by exact sizeOf_nested v.2

theorem faults_obj (fields : Members Json) : faults (.obj fields) =
    faultOf (plan fields) ++ (nested fields).flatMap faults ++
      (listed (fields.value? "mutate")).flatMap fun s => faultOf (Step.ofJson s) := by
  rw [faults, ← List.flatMap_map, List.attach_map_subtype_val]

theorem faults_of_literal (h : ∀ fields, v ≠ .obj fields) : faults v = [] := by
  rw [faults]
  exact h

/-! ## Reading -/

theorem ofJson_of_literal (h : ∀ fields, v ≠ .obj fields) : ofJson v = .ok (literal v) := by
  rw [ofJson]
  exact h

theorem reports_readSteps (steps : Option Json) :
    Reports ((listed steps).flatMap fun s => faultOf (Step.ofJson s)) (readSteps steps) := by
  have hone : ∀ s : Json, Reports ([s].flatMap fun s => faultOf (Step.ofJson s))
      (do return [← Step.ofJson s]) := by
    intro s
    rw [List.flatMap_singleton]
    exact (reports_faultOf (Step.ofJson s)).map fun s => [s]
  rcases steps with _ | v
  · exact reports_ok []
  · cases v with
    | null => exact reports_ok []
    | arr items => exact reports_mapM fun s _ => reports_faultOf (Step.ofJson s)
    | bool b => exact hone (.bool b)
    | num n => exact hone (.num n)
    | str s => exact hone (.str s)
    | obj fields => exact hone (.obj fields)

theorem given_cases (v : Json) (name : String) :
    given v name = [] ∧ (v.member? name = none ∨ v.member? name = some .null) ∨
      ∃ b, given v name = [b] ∧ v.member? name = some b ∧ b ≠ .null := by
  rw [given]
  rcases v.member? name with _ | b
  · exact .inl ⟨rfl, .inl rfl⟩
  · cases b with
    | null => exact .inl ⟨rfl, .inr rfl⟩
    | bool | num | str | arr | obj => exact .inr ⟨_, rfl, rfl, nofun⟩

theorem reports_readBound {name : String}
    (hparts : ∀ w ∈ given v name, Reports (faults w) (ofJson w)) :
    Reports ((given v name).flatMap faults) (readBound v name) := by
  rw [readBound_eq]
  rcases given_cases v name with ⟨hgiven, hmember | hmember⟩ | ⟨b, hgiven, hmember, hb⟩ <;>
    rw [hgiven, hmember]
  · exact reports_ok none
  · exact reports_ok none
  · rw [List.flatMap_singleton]
    simp only
    exact (hparts b (hgiven ▸ List.mem_singleton_self b)).map some

theorem reports_readBounds (hlow : ∀ w ∈ given v "left", Reports (faults w) (ofJson w))
    (hhigh : ∀ w ∈ given v "right", Reports (faults w) (ofJson w)) :
    Reports ((given v "left" ++ given v "right").flatMap faults) (readBounds v) := by
  have hbind : readBounds v =
      (readBound v "left" >>= fun low => (readBound v "right").map (.between low)) := by
    rw [readBounds]
    cases readBound v "left" <;> rfl
  rw [hbind, List.flatMap_append]
  exact (reports_readBound hlow).bind fun low _ => (reports_readBound hhigh).map _

theorem reports_readExtent (hparts : ∀ w ∈ extentParts v, Reports (faults w) (ofJson w)) :
    Reports ((extentParts v).flatMap faults) (readExtent v) := by
  rw [readExtent_eq]
  unfold extentParts at hparts ⊢
  rcases given_cases v "range" with ⟨-, hmember | hmember⟩ | ⟨b, -, hmember, hb⟩ <;>
    rw [hmember] at hparts ⊢
  · rw [List.forall_mem_append] at hparts
    exact reports_readBounds hparts.1 hparts.2
  · rw [List.forall_mem_append] at hparts
    exact reports_readBounds hparts.1 hparts.2
  · simp only at hparts ⊢
    rw [List.flatMap_singleton]
    exact (hparts b (List.mem_singleton_self b)).map _

theorem reports_ofJson (v : Json) : Reports (faults v) (ofJson v) := by
  induction v using nested_induction with
  | literal v h =>
    rw [faults_of_literal h, ofJson_of_literal h]
    exact reports_ok _
  | source fields ih =>
    have hmake : ∀ p, plan fields = .ok p →
        Reports ((nested fields).flatMap faults) p.make := by
      intro p hp
      rw [← plan_reads hp] at ih ⊢
      cases p with
      | origin o => exact reports_ok o
      | range inner smaller =>
        rw [Plan.reads, List.flatMap_singleton]
        exact (ih inner (List.mem_singleton_self inner)).map _
      | extent bounds notLarger => exact reports_readExtent ih
    rw [faults_obj, ofJson, List.append_assoc]
    refine (reports_faultOf (plan fields)).bind fun p hp => ?_
    have hread := hmake p hp
    have hsteps := fun origin : Origin =>
      (reports_readSteps (Members.value? "mutate" fields)).map (Operand.mk origin)
    cases p with
    | origin | range | extent => exact hread.bind fun origin _ => hsteps origin

theorem faults_eq_nil_iff (v : Json) : faults v = [] ↔ Acceptable v := by
  induction v using nested_induction with
  | literal v h => exact iff_of_true (faults_of_literal h) (.literal h)
  | source fields ih =>
    have hplan : faultOf (plan fields) = [] ↔ TagServed fields :=
      faultOf_eq_nil_iff.trans (plan_isOk_iff fields)
    have hinside : (nested fields).flatMap faults = [] ↔ ∀ w ∈ nested fields, Acceptable w :=
      List.flatMap_eq_nil_iff.trans (forall₂_congr ih)
    have hsteps : ((listed (Members.value? "mutate" fields)).flatMap fun s =>
        faultOf (Step.ofJson s)) = [] ↔
          ∀ s ∈ listed (Members.value? "mutate" fields), Step.WellFormed s :=
      List.flatMap_eq_nil_iff.trans
        (forall₂_congr fun s _ => faultOf_eq_nil_iff.trans (Step.ofJson_isOk_iff s))
    rw [faults_obj, List.append_eq_nil_iff, List.append_eq_nil_iff, hplan, hinside, hsteps]
    constructor
    · rintro ⟨⟨htag, hinside⟩, hsteps⟩
      exact .source htag hinside hsteps
    · intro h
      cases h with
      | literal hliteral => exact absurd rfl (hliteral fields)
      | source htag hinside hsteps => exact ⟨⟨htag, hinside⟩, hsteps⟩

/-! ## Unknown steps -/

/-- An operand and those inside it that are read. -/
inductive Inside : Json → Json → Prop
  | self (v : Json) : Inside v v
  | nested {fields : Members Json} {v w : Json} (mem : v ∈ nested fields) (inside : Inside v w) :
    Inside (.obj fields) w

def HasStep (v s : Json) : Prop :=
  ∃ fields, Inside v (.obj fields) ∧ s ∈ listed (Members.value? "mutate" fields)

theorem unknownStep_mem_faults {s : Json} {name : String} (hs : HasStep v s)
    (hname : Step.NamesUnknown s name) : .unknownStep name ∈ faults v := by
  obtain ⟨fields, hinside, hs⟩ := hs
  generalize hw : Json.obj fields = w at hinside
  induction hinside with
  | self v =>
    subst hw
    have hfault : .unknownStep name ∈ faultOf (Step.ofJson s) := by
      rw [Step.ofJson_of_namesUnknown hname]
      exact List.mem_singleton_self _
    rw [faults_obj]
    exact List.mem_append_right _ (List.mem_flatMap_of_mem hs hfault)
  | nested mem inside ih =>
    rw [faults_obj]
    exact List.mem_append_left _ (List.mem_append_right _ (List.mem_flatMap_of_mem mem (ih hw)))

end Verdict.Operand
