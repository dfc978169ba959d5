import Verdict.Proofs.Operand.Shape
import Verdict.Rule.Basic

/-!
# Which definitions rules can be made of

A rule can be made of a definition if every node of the definition is well shaped: its names are
known, its operands can be read and its kind has a place for all that is given.  Otherwise the first
fault is reported, in the order in which the nodes are read.
-/

namespace Verdict

/-! ## Names -/

theorem Kind.ofName?_eq_some_iff {s : String} {k : Kind} : ofName? s = some k ↔ k.name = s := by
  constructor
  · intro h
    have hname := List.find?_some (p := fun k : Kind => k.name == s) h
    exact beq_iff_eq.mp hname
  · rintro rfl
    cases k <;> rfl

theorem Kind.exists_ofName?_iff {s : String} : (∃ k, ofName? s = some k) ↔ s ∈ all.map name := by
  simp only [ofName?_eq_some_iff, List.mem_map]
  exact exists_congr fun k => (and_iff_right (by cases k <;> decide)).symm

theorem Kind.exists_read?_iff (s : String) :
    (∃ k, read? s = some k) ↔ Text.raiseAscii (Text.trim s) ∈ all.map name :=
  exists_ofName?_iff

def Operator.names : List String :=
  "EQUALS" :: "NOT_EQUALS" :: list.map name

theorem Operator.exists_ofName?_iff {s : String} : (∃ op, ofName? s = some op) ↔ s ∈ names := by
  rw [ofName?, names, List.mem_cons, List.mem_cons]
  by_cases hequal : s = "EQUALS"
  · simp [hequal]
  · by_cases hnot : s = "NOT_EQUALS"
    · simp [hnot]
    · simp [hequal, hnot, ← Option.isSome_iff_exists, List.find?_isSome]

theorem Operator.exists_read?_iff (s : String) :
    (∃ op, read? s = some op) ↔ Text.raiseAscii (Text.trim s) ∈ names :=
  exists_ofName?_iff

namespace Definition

/-! ## Nodes -/

def parts (d : Definition) : List Definition :=
  d.conditions.getD [] ++ d.dependencies.getD []

inductive Reaches : Definition → Definition → Prop
  | self (d : Definition) : Reaches d d
  | part {d c e : Definition} (mem : c ∈ d.parts) (below : Reaches c e) : Reaches d e

def kindName (d : Definition) : String :=
  (d.kind.map fun name => Text.raiseAscii (Text.trim name)).getD "PRIMITIVE"

def given (locals : Option (List (String × Json))) : List Json :=
  ((locals.getD []).map (·.2)).filter (!·.isNull)

def operands (d : Definition) : List Json :=
  d.left.toList ++ d.right.toList ++ given d.locals

/-- What a node has to be for a rule to be made of it. -/
structure WellShaped (d : Definition) : Prop where
  kind : ∀ name, d.kind = some name → Text.raiseAscii (Text.trim name) ∈ Kind.all.map Kind.name
  operator : ∀ name, d.operator = some name →
    Text.raiseAscii (Text.trim name) ∈ Operator.names
  operands : ∀ v ∈ d.operands, Operand.Acceptable v
  compound : d.kindName = "COMPOUND" → d.left = none ∧ d.right = none
  iterate : d.kindName = "ITERATE" → d.right = none
  presence : d.kindName = "EXISTS" → d.right = none
  conditions : d.conditions.getD [] ≠ [] → d.kindName = "COMPOUND" ∨ d.kindName = "ITERATE"

/-! ## Faults -/

/-- What is given that a kind has no place for. -/
def misplaced (kind : Kind) (left right conditions : Bool) : Option Reason :=
  match kind with
  | .compound => if left || right then some .compoundOperands else none
  | .iterate => if right then some .iterateRight else none
  | .presence =>
    if conditions then some .childrenOfLeaf else if right then some .presenceRight else none
  | .primitive | .date | .time => if conditions then some .childrenOfLeaf else none

def shapeFaults (d : Definition) : List Fault :=
  match Rule.kindOf d.kind, Rule.operatorOf d.operator with
  | .ok kind, .ok op =>
    ((misplaced kind d.left.isSome d.right.isSome !(d.conditions.getD []).isEmpty).map
      (.malformed (Rule.label kind op))).toList
  | _, _ => []

theorem shapeFaults_of_known {d : Definition} {kind : Kind} {op : Operator}
    (hkind : Rule.kindOf d.kind = .ok kind) (hop : Rule.operatorOf d.operator = .ok op) :
    d.shapeFaults = ((misplaced kind d.left.isSome d.right.isSome
      !(d.conditions.getD []).isEmpty).map (.malformed (Rule.label kind op))).toList := by
  rw [shapeFaults, hkind, hop]

mutual
def faults : Definition → List Fault
  | ⟨description, left, right, kind, operator, locals, dependencies, conditions⟩ =>
    faultOf (Rule.kindOf kind) ++ (faultOf (Rule.operatorOf operator) ++
      (left.toList.flatMap Operand.faults ++ (right.toList.flatMap Operand.faults ++
      (faultsAll conditions ++
      (shapeFaults ⟨description, left, right, kind, operator, locals, dependencies, conditions⟩ ++
      ((given locals).flatMap Operand.faults ++ faultsAll dependencies))))))

def faultsAll : Option (List Definition) → List Fault
  | none => []
  | some ds => faultsOf ds

def faultsOf : List Definition → List Fault
  | [] => []
  | d :: rest => faults d ++ faultsOf rest
end

theorem faultsOf_eq (ds : List Definition) : faultsOf ds = ds.flatMap faults := by
  induction ds with
  | nil => rfl
  | cons d rest ih => rw [faultsOf, List.flatMap_cons, ih]

theorem faultsAll_eq (ds : Option (List Definition)) :
    faultsAll ds = (ds.getD []).flatMap faults := by
  cases ds with
  | none => rfl
  | some ds => exact faultsOf_eq ds

/-! ## Shapes -/

theorem misplaced_eq_none_iff (kind : Kind) (left right conditions : Bool) :
    misplaced kind left right conditions = none ↔
      (kind = .compound → left = false ∧ right = false) ∧ (kind = .iterate → right = false) ∧
        (kind = .presence → right = false) ∧
        (conditions = true → kind = .compound ∨ kind = .iterate) := by
  cases kind <;> revert left right conditions <;> decide

end Definition

namespace Rule

section Known

variable {α : Type} {read? : String → Option α} {names : List String}
  (hread : ∀ s, (∃ a, read? s = some a) ↔ Text.raiseAscii (Text.trim s) ∈ names)

/-- What a name stands for, if one is given. -/
def known (read? : String → Option α) (unknown : String → Fault) (default : α) :
    Option String → Except Fault α
  | none => .ok default
  | some name => (read? name).elim (.error (unknown name)) .ok

include hread

theorem known_isOk_iff (unknown : String → Fault) (default : α) (given : Option String) :
    (∃ a, known read? unknown default given = .ok a) ↔
      ∀ name, given = some name → Text.raiseAscii (Text.trim name) ∈ names := by
  cases given with
  | none => exact iff_of_true ⟨default, rfl⟩ nofun
  | some name =>
    have hname : (∃ a, read? name = some a) ↔
        ∀ s, some name = some s → Text.raiseAscii (Text.trim s) ∈ names :=
      (hread name).trans ⟨fun h s hs => Option.some.inj hs ▸ h, fun h => h name rfl⟩
    rw [← hname, known]
    cases read? name with
    | none => exact iff_of_false nofun nofun
    | some a => exact iff_of_true ⟨a, rfl⟩ ⟨a, rfl⟩

theorem known_of_unknown (unknown : String → Fault) (default : α) {name : String}
    (h : Text.raiseAscii (Text.trim name) ∉ names) :
    known read? unknown default (some name) = .error (unknown name) := by
  have hnone : read? name = none :=
    Option.eq_none_iff_forall_ne_some.mpr fun a ha => h ((hread name).mp ⟨a, ha⟩)
  rw [known, hnone]
  rfl

end Known

theorem kindOf_eq (kind : Option String) :
    kindOf kind = known Kind.read? .unknownKind .primitive kind := by
  cases kind with
  | none => rfl
  | some name =>
    rw [kindOf, known]
    cases Kind.read? name <;> rfl

theorem operatorOf_eq (operator : Option String) :
    operatorOf operator = known Operator.read? .unknownOperator .equal operator := by
  cases operator with
  | none => rfl
  | some name =>
    rw [operatorOf, known]
    cases Operator.read? name <;> rfl

theorem kindOf_isOk_iff (kind : Option String) : (∃ k, kindOf kind = .ok k) ↔
    ∀ name, kind = some name → Text.raiseAscii (Text.trim name) ∈ Kind.all.map Kind.name := by
  rw [kindOf_eq]
  exact known_isOk_iff Kind.exists_read?_iff _ _ kind

theorem operatorOf_isOk_iff (operator : Option String) : (∃ op, operatorOf operator = .ok op) ↔
    ∀ name, operator = some name → Text.raiseAscii (Text.trim name) ∈ Operator.names := by
  rw [operatorOf_eq]
  exact known_isOk_iff Operator.exists_read?_iff _ _ operator

end Rule

namespace Definition

variable {d c : Definition}

theorem kindName_eq {kind : Kind} (h : Rule.kindOf d.kind = .ok kind) : d.kindName = kind.name := by
  rw [kindName]
  cases hgiven : d.kind with
  | none =>
    rw [hgiven] at h
    cases h
    rfl
  | some name =>
    rw [hgiven, Rule.kindOf] at h
    cases hread : Kind.read? name with
    | none =>
      rw [hread] at h
      cases h
    | some k =>
      rw [hread] at h
      cases h
      exact (Kind.ofName?_eq_some_iff.mp hread).symm

theorem shapeFaults_eq_nil_iff {kind : Kind} {op : Operator}
    (hkind : Rule.kindOf d.kind = .ok kind) (hop : Rule.operatorOf d.operator = .ok op) :
    d.shapeFaults = [] ↔ (d.kindName = "COMPOUND" → d.left = none ∧ d.right = none) ∧
      (d.kindName = "ITERATE" → d.right = none) ∧ (d.kindName = "EXISTS" → d.right = none) ∧
      (d.conditions.getD [] ≠ [] → d.kindName = "COMPOUND" ∨ d.kindName = "ITERATE") := by
  have hcompound : kind = .compound ↔ kind.name = "COMPOUND" := by cases kind <;> decide
  have hiterate : kind = .iterate ↔ kind.name = "ITERATE" := by cases kind <;> decide
  have hpresence : kind = .presence ↔ kind.name = "EXISTS" := by cases kind <;> decide
  rw [shapeFaults_of_known hkind hop, Option.toList_eq_nil_iff, Option.map_eq_none_iff,
    misplaced_eq_none_iff, kindName_eq hkind, hcompound, hiterate, hpresence]
  simp only [Option.isSome_eq_false_iff, Option.isNone_iff_eq_none, Bool.not_eq_true',
    List.isEmpty_eq_false_iff]

/-- The faults of a definition are those of its node and those of the definitions right below. -/
theorem faults_eq_nil_iff (d : Definition) :
    d.faults = [] ↔ d.WellShaped ∧ ∀ c ∈ d.parts, c.faults = [] := by
  obtain ⟨description, left, right, kind, operator, locals, dependencies, conditions⟩ := d
  simp only [faults, List.append_eq_nil_iff, faultOf_eq_nil_iff, faultsAll_eq,
    List.flatMap_eq_nil_iff, Operand.faults_eq_nil_iff]
  constructor
  · rintro ⟨⟨k, hk⟩, ⟨op, hop⟩, hleft, hright, hconditions, hshape, hlocals, hdependencies⟩
    obtain ⟨hcompound, hiterate, hpresence, hchildren⟩ := (shapeFaults_eq_nil_iff hk hop).mp hshape
    refine ⟨⟨(Rule.kindOf_isOk_iff kind).mp ⟨k, hk⟩,
      (Rule.operatorOf_isOk_iff operator).mp ⟨op, hop⟩, ?_, hcompound, hiterate, hpresence,
      hchildren⟩, ?_⟩
    · intro v hv
      rcases List.mem_append.mp hv with hv | hv
      · exact (List.mem_append.mp hv).elim (hleft v) (hright v)
      · exact hlocals v hv
    · intro c hc
      exact (List.mem_append.mp hc).elim (hconditions c) (hdependencies c)
  · rintro ⟨hd, hparts⟩
    obtain ⟨k, hk⟩ := (Rule.kindOf_isOk_iff kind).mpr hd.kind
    obtain ⟨op, hop⟩ := (Rule.operatorOf_isOk_iff operator).mpr hd.operator
    refine ⟨⟨k, hk⟩, ⟨op, hop⟩, ?_, ?_, ?_, ?_, ?_, ?_⟩
    · exact fun v hv => hd.operands v (List.mem_append_left _ (List.mem_append_left _ hv))
    · exact fun v hv => hd.operands v (List.mem_append_left _ (List.mem_append_right _ hv))
    · exact fun c hc => hparts c (List.mem_append_left _ hc)
    · exact (shapeFaults_eq_nil_iff hk hop).mpr
        ⟨hd.compound, hd.iterate, hd.presence, hd.conditions⟩
    · exact fun v hv => hd.operands v (List.mem_append_right _ hv)
    · exact fun c hc => hparts c (List.mem_append_right _ hc)

theorem sizeOf_parts (h : c ∈ d.parts) : sizeOf c < sizeOf d := by
  obtain ⟨description, left, right, kind, operator, locals, dependencies, conditions⟩ := d
  have hlist : ∀ {ds : Option (List Definition)}, c ∈ ds.getD [] → sizeOf c < sizeOf ds := by
    intro ds hc
    cases ds with
    | none => cases hc
    | some ds =>
      have hlt := List.sizeOf_lt_of_mem hc
      simp only [Option.some.sizeOf_spec, Option.getD_some] at hlt ⊢
      omega
  simp only [Definition.mk.sizeOf_spec]
  rcases List.mem_append.mp h with h | h
  · have hlt : sizeOf c < sizeOf conditions := hlist h
    omega
  · have hlt : sizeOf c < sizeOf dependencies := hlist h
    omega

/-- There are no faults exactly if every node is well shaped. -/
theorem faults_eq_nil_iff_reaches (d : Definition) :
    d.faults = [] ↔ ∀ e, d.Reaches e → e.WellShaped := by
  constructor
  · intro h e he
    induction he with
    | self d => exact ((faults_eq_nil_iff d).mp h).1
    | part mem below ih => exact ih (((faults_eq_nil_iff _).mp h).2 _ mem)
  · induction hsize : sizeOf d using Nat.strong_induction_on generalizing d with
    | _ n ih =>
      subst hsize
      intro h
      refine (faults_eq_nil_iff d).mpr ⟨h d (.self d), fun c hc => ?_⟩
      exact ih _ (sizeOf_parts hc) c rfl fun e he => h e (.part hc he)

/-! ## Unknown names -/

theorem mem_faults_iff {f : Fault} : f ∈ d.faults ↔
    f ∈ faultOf (Rule.kindOf d.kind) ∨ f ∈ faultOf (Rule.operatorOf d.operator) ∨
      (∃ v ∈ d.operands, f ∈ Operand.faults v) ∨ f ∈ d.shapeFaults ∨
      ∃ c ∈ d.parts, f ∈ c.faults := by
  obtain ⟨description, left, right, kind, operator, locals, dependencies, conditions⟩ := d
  simp only [faults, faultsAll_eq, operands, parts, List.mem_append, List.mem_flatMap, or_and_right,
    exists_or]
  exact iff_of_eq (by ac_rfl)

theorem faults_subset {e : Definition} (h : d.Reaches e) : e.faults ⊆ d.faults := by
  induction h with
  | self d => exact fun _ => id
  | part mem below ih =>
    exact fun f hf => mem_faults_iff.mpr (.inr (.inr (.inr (.inr ⟨_, mem, ih hf⟩))))

theorem unknownKind_mem_faults {name : String} (h : d.kind = some name)
    (hname : Text.raiseAscii (Text.trim name) ∉ Kind.all.map Kind.name) :
    .unknownKind name ∈ d.faults := by
  refine mem_faults_iff.mpr (.inl ?_)
  rw [h, Rule.kindOf_eq, Rule.known_of_unknown Kind.exists_read?_iff _ _ hname]
  exact List.mem_singleton_self _

theorem unknownOperator_mem_faults {name : String} (h : d.operator = some name)
    (hname : Text.raiseAscii (Text.trim name) ∉ Operator.names) :
    .unknownOperator name ∈ d.faults := by
  refine mem_faults_iff.mpr (.inr (.inl ?_))
  rw [h, Rule.operatorOf_eq, Rule.known_of_unknown Operator.exists_read?_iff _ _ hname]
  exact List.mem_singleton_self _

end Definition

/-! ## Reading -/

namespace Rule

open Definition

theorem reports_operandOf (v : Option Json) :
    Reports (v.toList.flatMap Operand.faults) (operandOf v) := by
  cases v with
  | none => exact reports_ok none
  | some v =>
    rw [Option.toList_some, List.flatMap_singleton]
    exact (Operand.reports_ofJson v).map some

theorem isSome_operandOf {v : Option Json} {o : Option Operand} (h : operandOf v = .ok o) :
    o.isSome = v.isSome := by
  cases v with
  | none =>
    cases h
    rfl
  | some v =>
    obtain ⟨p, -, rfl⟩ := map_eq_ok h
    rfl

theorem reports_variablesOf (locals : List (String × Json)) :
    Reports ((given (some locals)).flatMap Operand.faults) (variablesOf locals) := by
  induction locals with
  | nil => exact reports_ok []
  | cons pair rest ih =>
    obtain ⟨name, v⟩ := pair
    rw [variablesOf]
    cases hnull : v.isNull with
    | true =>
      have hgiven : given (some ((name, v) :: rest)) = given (some rest) := by
        simp [given, hnull]
      rw [hgiven]
      exact ih
    | false =>
      have hgiven : given (some ((name, v) :: rest)) = v :: given (some rest) := by
        simp [given, hnull]
      rw [hgiven, List.flatMap_cons]
      exact (Operand.reports_ofJson v).bind fun o _ => ih.map ((name, o) :: ·)

theorem reports_assemble (kind : Kind) (op : Operator) (left right : Option Operand)
    (children : List Rule) :
    Reports ((misplaced kind left.isSome right.isSome !children.isEmpty).map
      (.malformed (label kind op))).toList (assemble kind op left right children) := by
  cases kind with
  | compound =>
    simp only [assemble, misplaced]
    cases left.isSome || right.isSome
    · exact reports_ok _
    · exact reports_error
  | iterate =>
    simp only [assemble, misplaced]
    cases right.isSome
    · exact reports_ok _
    · exact reports_error
  | presence =>
    simp only [assemble, misplaced]
    cases children.isEmpty
    · exact reports_error
    · cases right.isSome
      · exact reports_ok _
      · exact reports_error
  | primitive | date | time =>
    simp only [assemble, misplaced]
    cases children.isEmpty
    · exact reports_error
    · exact reports_ok _

theorem isEmpty_ofDefinitions {scope : ScopeId} {ds : List Definition} {rs : List Rule}
    (h : ofDefinitions scope ds = .ok rs) : rs.isEmpty = ds.isEmpty := by
  cases ds with
  | nil =>
    cases h
    rfl
  | cons d rest =>
    rw [ofDefinitions] at h
    obtain ⟨r, -, h⟩ := bind_eq_ok h
    obtain ⟨rs, -, h⟩ := bind_eq_ok h
    cases h
    rfl

theorem isEmpty_ofDefinitions? {scope : ScopeId} {ds : Option (List Definition)} {rs : List Rule}
    (h : ofDefinitions? scope ds = .ok rs) : rs.isEmpty = (ds.getD []).isEmpty := by
  cases ds with
  | none =>
    cases h
    rfl
  | some ds => exact isEmpty_ofDefinitions h

mutual
theorem reports_ofDefinition (scope : ScopeId) : (d : Definition) →
    Reports d.faults (ofDefinition scope d)
  | ⟨description, left, right, kind, operator, locals, dependencies, conditions⟩ => by
    rw [faults, ofDefinition]
    refine (reports_faultOf (kindOf kind)).bind fun k hk => ?_
    refine (reports_faultOf (operatorOf operator)).bind fun op hop => ?_
    refine (reports_operandOf left).bind fun l hl => ?_
    refine (reports_operandOf right).bind fun r hr => ?_
    refine (reports_ofDefinitions? scope conditions).bind fun children hchildren => ?_
    have hassemble := reports_assemble k op l r children
    rw [isSome_operandOf hl, isSome_operandOf hr, isEmpty_ofDefinitions? hchildren] at hassemble
    rw [shapeFaults_of_known (d := ⟨description, left, right, kind, operator, locals, dependencies,
      conditions⟩) hk hop]
    refine hassemble.bind fun test _ => ?_
    refine (reports_variablesOf (locals.getD [])).bind fun vars _ => ?_
    exact (reports_ofDefinitions? scope dependencies).map _

theorem reports_ofDefinitions? (scope : ScopeId) : (ds : Option (List Definition)) →
    Reports (faultsAll ds) (ofDefinitions? scope ds)
  | none => reports_ok []
  | some ds => reports_ofDefinitions scope ds

theorem reports_ofDefinitions (scope : ScopeId) : (ds : List Definition) →
    Reports (faultsOf ds) (ofDefinitions scope ds)
  | [] => reports_ok []
  | d :: rest => by
    rw [faultsOf, ofDefinitions]
    exact (reports_ofDefinition scope d).bind fun r _ =>
      (reports_ofDefinitions scope rest).map (r :: ·)
end

/-- A rule can be made of a definition exactly if all its nodes are well shaped.  Otherwise the
fault is the first of all faults, and among these is every name that is not known, so it is reported
or something read before it is. -/
theorem definition_accepted (scope : ScopeId) (d : Definition) :
    ((∃ r, ofDefinition scope d = .ok r) ↔ ∀ e, d.Reaches e → e.WellShaped) ∧
      (∀ f, ofDefinition scope d = .error f ↔ d.faults.head? = some f) ∧
      ∀ e, d.Reaches e →
        (∀ name, e.kind = some name →
          Text.raiseAscii (Text.trim name) ∉ Kind.all.map Kind.name →
            .unknownKind name ∈ d.faults) ∧
        (∀ name, e.operator = some name → Text.raiseAscii (Text.trim name) ∉ Operator.names →
          .unknownOperator name ∈ d.faults) ∧
        ∀ v ∈ e.operands, ∀ s name, Operand.HasStep v s → Step.NamesUnknown s name →
          .unknownStep name ∈ d.faults := by
  have hreports := reports_ofDefinition scope d
  refine ⟨hreports.isOk_iff.trans (faults_eq_nil_iff_reaches d), fun f => hreports.eq_error_iff,
    fun e he => ⟨?_, ?_, ?_⟩⟩
  · exact fun name h hname => faults_subset he (unknownKind_mem_faults h hname)
  · exact fun name h hname => faults_subset he (unknownOperator_mem_faults h hname)
  · intro v hv s name hs hname
    have hfault := Operand.unknownStep_mem_faults hs hname
    exact faults_subset he (mem_faults_iff.mpr (.inr (.inr (.inl ⟨v, hv, hfault⟩))))

/-- An operator that is not known, below a group. -/
theorem definition_accepted_below :
    let leaf : Definition := { left := some (.str "x"), operator := some "same" }
    let d : Definition := { kind := some " compound ", conditions := some [leaf] }
    d.Reaches leaf ∧ Text.raiseAscii (Text.trim "same") ∉ Operator.names ∧
      .unknownOperator "same" ∈ d.faults ∧
      ofDefinition ⟨0⟩ d = .error (.unknownOperator "same") ∧
      ¬∃ r, ofDefinition ⟨0⟩ d = .ok r := by
  intro leaf d
  have hreaches : d.Reaches leaf := .part (List.mem_singleton_self leaf) (.self leaf)
  have hname : Text.raiseAscii (Text.trim "same") ∉ Operator.names := by decide
  obtain ⟨hok, herror, hnames⟩ := definition_accepted ⟨0⟩ d
  have hfirst : d.faults.head? = some (.unknownOperator "same") := by decide
  refine ⟨hreaches, hname, (hnames leaf hreaches).2.1 "same" rfl hname, (herror _).mpr hfirst, ?_⟩
  exact fun h => absurd ((hok.mp h leaf hreaches).operator "same" rfl) hname

end Rule

end Verdict
