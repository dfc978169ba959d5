import Verdict.Proofs.Fault
import Verdict.Proofs.Operand.Plain
import Verdict.Proofs.Rule.Tree

/-!
# Plain forms of rules

A rule is made again from its definition, and the definition is read again from its JSON value.
Only descriptions, scopes and kept checks are settled otherwise: the scope is the one that the new
rule is made in, and no check has been kept yet.
-/

namespace Verdict

/-! ## Members in the order of their names -/

namespace Members

variable {α : Type} {name key : String}

def putOptional (name : String) (o : Option α) (ms : Members α) : Members α :=
  match o with
  | none => ms
  | some v => put name v ms

end Members

namespace Definition

variable {name key : String} {o p : Option Json} {ms : Members Json}

theorem gather_field (ps : List (String × Json)) :
    Members.gather (ps ++ field name o) = Members.putOptional name o (.gather ps) := by
  cases o with
  | none => simp [field, Members.putOptional]
  | some v => simp [field, Members.putOptional, Members.gather, List.foldl_append]

/-- A name behind the first one goes further down. -/
theorem putOptional_after (h : ¬name < key) (hne : key ≠ name) :
    Members.putOptional name o (field key p ++ ms) =
      field key p ++ Members.putOptional name o ms := by
  cases o with
  | none => rfl
  | some v =>
    cases p with
    | none => rfl
    | some w =>
      simp only [Members.putOptional, field, List.cons_append, List.nil_append, Members.put]
      rw [if_neg h, if_neg hne]

def Above (name : String) (ms : Members Json) : Prop :=
  ∀ m ∈ ms, name < m.1

theorem above_nil : Above name [] :=
  fun _ h => nomatch h

theorem above_field (h : name < key) (hms : Above name ms) : Above name (field key p ++ ms) := by
  intro m hm
  cases p with
  | none => exact hms m hm
  | some v =>
    rcases List.mem_cons.mp hm with rfl | hm
    · exact h
    · exact hms m hm

theorem putOptional_before (h : Above name ms) :
    Members.putOptional name o ms = field name o ++ ms := by
  cases o with
  | none => rfl
  | some v =>
    cases ms with
    | nil => rfl
    | cons m ms => exact if_pos (h m List.mem_cons_self)

theorem children_eq (name : String) (ds : Option (List Definition)) :
    children name ds = field name (ds.map fun ds => .arr (toItems ds)) := by
  cases ds <;> rfl

/-- The members of the plain form stand in the order of their names. -/
theorem toJson_eq (d : Definition) :
    d.toJson = .obj (field "conditions" (d.conditions.map fun ds => .arr (toItems ds))
      ++ (field "dependencies" (d.dependencies.map fun ds => .arr (toItems ds))
      ++ (field "description" (d.description.map .str) ++ (field "left" d.left
      ++ (field "operator" (d.operator.map .str) ++ (field "right" d.right
      ++ (field "type" (d.kind.map .str)
      ++ (field "variables" (d.locals.map .obj) ++ [])))))))) := by
  obtain ⟨description, left, right, kind, operator, locals, dependencies, conditions⟩ := d
  have hfirst : Members.gather (field "description" (description.map Json.str)) =
      Members.putOptional "description" (description.map Json.str) [] :=
    gather_field []
  rw [toJson, Json.object, children_eq, children_eq]
  simp (disch := first | decide | repeat first | exact above_nil | apply above_field (by decide))
    only [gather_field, hfirst, putOptional_after, putOptional_before]

/-! ## Reading definitions -/

theorem ofFields_field (d : Definition) :
    ofFields d (field name o ++ ms) = (o.elim (some d) (ofField d name)).bind (ofFields · ms) := by
  cases o with
  | none => rfl
  | some v =>
    rw [field, List.cons_append, List.nil_append, ofFields]
    rfl

theorem ofField_value {d : Definition} {v : Json} (hv : v ≠ .null) :
    ofField d "left" v = some { d with left := some v }
      ∧ ofField d "right" v = some { d with right := some v } := by
  cases v with
  | null => exact absurd rfl hv
  | _ => exact ⟨rfl, rfl⟩

theorem ofField_items {d : Definition} {ds : List Definition} (h : ofItems (toItems ds) = some ds) :
    ofField d "dependencies" (.arr (toItems ds)) = some { d with dependencies := some ds }
      ∧ ofField d "conditions" (.arr (toItems ds)) = some { d with conditions := some ds } := by
  constructor <;> · rw [ofField, h]; rfl

/-- A definition is read again if its operands are no nulls and the definitions in it are read
again. -/
theorem ofJson_toJson {d : Definition} (hleft : d.left ≠ some .null) (hright : d.right ≠ some .null)
    (hdependencies : ∀ ds, d.dependencies = some ds → ofItems (toItems ds) = some ds)
    (hconditions : ∀ ds, d.conditions = some ds → ofItems (toItems ds) = some ds) :
    ofJson d.toJson = some d := by
  obtain ⟨description, left, right, kind, operator, locals, dependencies, conditions⟩ := d
  rw [toJson_eq, ofJson]
  simp only [ofFields_field]
  -- the members are read in the order of their names
  have h₁ : (conditions.map fun ds => Json.arr (toItems ds)).elim (some {})
      (ofField {} "conditions") = some { conditions } := by
    cases conditions with
    | none => rfl
    | some ds => exact (ofField_items (hconditions ds rfl)).2
  rw [h₁, Option.bind_some]
  have h₂ : (dependencies.map fun ds => Json.arr (toItems ds)).elim (some { conditions })
      (ofField { conditions } "dependencies") = some { dependencies, conditions } := by
    cases dependencies with
    | none => rfl
    | some ds => exact (ofField_items (hdependencies ds rfl)).1
  rw [h₂, Option.bind_some]
  have h₃ : (description.map Json.str).elim (some { dependencies, conditions })
      (ofField { dependencies, conditions } "description") =
      some { description, dependencies, conditions } := by
    cases description <;> rfl
  rw [h₃, Option.bind_some]
  have h₄ : left.elim (some { description, dependencies, conditions })
      (ofField { description, dependencies, conditions } "left") =
      some { description, left, dependencies, conditions } := by
    cases left with
    | none => rfl
    | some v => exact (ofField_value fun hv => hleft (congrArg some hv)).1
  rw [h₄, Option.bind_some]
  have h₅ : (operator.map Json.str).elim (some { description, left, dependencies, conditions })
      (ofField { description, left, dependencies, conditions } "operator") =
      some { description, left, operator, dependencies, conditions } := by
    cases operator <;> rfl
  rw [h₅, Option.bind_some]
  have h₆ : right.elim (some { description, left, operator, dependencies, conditions })
      (ofField { description, left, operator, dependencies, conditions } "right") =
      some { description, left, right, operator, dependencies, conditions } := by
    cases right with
    | none => rfl
    | some v => exact (ofField_value fun hv => hright (congrArg some hv)).2
  rw [h₆, Option.bind_some]
  have h₇ : (kind.map Json.str).elim
      (some { description, left, right, operator, dependencies, conditions })
      (ofField { description, left, right, operator, dependencies, conditions } "type") =
      some { description, left, right, kind, operator, dependencies, conditions } := by
    cases kind <;> rfl
  rw [h₇, Option.bind_some]
  cases locals <;> rfl

end Definition

namespace Rule

/-! ## Definitions of rules -/

theorem left_ne_null (o : Option Operand) : o.map Operand.toJson ≠ some .null := by
  cases o with
  | none => exact nofun
  | some o =>
    rw [Option.map_some, Operand.toJson_eq]
    exact nofun

theorem ofItems_someUnlessEmpty {ds : List Definition}
    (h : Definition.ofItems (Definition.toItems ds) = some ds) :
    ∀ es, someUnlessEmpty ds = some es →
      Definition.ofItems (Definition.toItems es) = some es := by
  intro es hes
  cases ds with
  | nil => cases hes
  | cons d rest =>
    cases hes
    exact h

mutual
theorem ofJson_toDefinition : (r : Rule) →
    Definition.ofJson r.toDefinition.toJson = some r.toDefinition
  | ⟨test, op, dependencies, locals, description, scope, memo⟩ => by
    rw [toDefinition]
    exact Definition.ofJson_toJson (left_ne_null _) (left_ne_null _)
      (ofItems_someUnlessEmpty (ofItems_toDefinitions dependencies))
      (ofItems_someUnlessEmpty (ofItems_toDefinitionsBelow test))

theorem ofItems_toDefinitionsBelow : (test : Test Rule) →
    Definition.ofItems (Definition.toItems (toDefinitionsBelow test)) =
      some (toDefinitionsBelow test)
  | .compound cs => ofItems_toDefinitions cs
  | .iterate _ cs => ofItems_toDefinitions cs
  | .compare .. => rfl
  | .presence _ => rfl

theorem ofItems_toDefinitions : (rs : List Rule) →
    Definition.ofItems (Definition.toItems (toDefinitions rs)) = some (toDefinitions rs)
  | [] => rfl
  | r :: rest => by
    rw [toDefinitions, Definition.toItems, Definition.ofItems, ofJson_toDefinition r,
      ofItems_toDefinitions rest]
    rfl
end

/-! ## Rules of definitions -/

theorem kindOf_name (k : Kind) : kindOf (some k.name) = .ok k := by
  have hread : Kind.read? k.name = some k := by
    cases k <;> decide
  rw [kindOf, hread]

theorem operatorOf_name (op : Operator) : operatorOf (some op.name) = .ok op := by
  have hread : Operator.read? op.name = some op := by
    cases op <;> decide
  rw [operatorOf, hread]

theorem operandOf_toJson (o : Option Operand) : operandOf (o.map Operand.toJson) = .ok o := by
  cases o with
  | none => rfl
  | some o =>
    rw [Option.map_some, operandOf, Operand.ofJson_toJson]
    rfl

theorem variablesOf_plain (locals : Members Operand) :
    variablesOf (plainVariables locals) = .ok locals := by
  induction locals with
  | nil => rfl
  | cons l rest ih =>
    obtain ⟨name, o⟩ := l
    have hnull : o.toJson.isNull = false := by
      rw [Operand.toJson_eq]
      rfl
    rw [plainVariables] at ih ⊢
    rw [List.map_cons, variablesOf, hnull, ih, Operand.ofJson_toJson]
    rfl

theorem getD_someUnlessEmpty {α : Type} (xs : List α) : (someUnlessEmpty xs).getD [] = xs := by
  cases xs <;> rfl

theorem ofDefinitions?_someUnlessEmpty (scope : ScopeId) (ds : List Definition) :
    ofDefinitions? scope (someUnlessEmpty ds) = ofDefinitions scope ds := by
  cases ds <;> rfl

theorem assemble_withScope (scope : ScopeId) (op : Operator) (test : Test Rule) :
    assemble test.kind op test.left test.right (withScopeAll scope test.children) =
      .ok (withScopeBelow scope test) := by
  cases test with
  | compare as l r => cases as <;> rfl
  | _ => rfl

mutual
/-- The definition of a rule makes that rule again, in the scope that it is made in. -/
theorem ofDefinition_toDefinition (scope : ScopeId) : (r : Rule) →
    ofDefinition scope r.toDefinition = .ok (r.withScope scope)
  | ⟨test, op, dependencies, locals, description, _, memo⟩ => by
    rw [toDefinition, ofDefinition, kindOf_name, operatorOf_name, operandOf_toJson,
      operandOf_toJson, ofDefinitions?_someUnlessEmpty, ofDefinitions?_someUnlessEmpty,
      getD_someUnlessEmpty, variablesOf_plain, ofDefinitions_toDefinitions scope dependencies,
      ofDefinitions_toDefinitionsBelow scope test]
    simp only [bind, Except.bind, assemble_withScope]
    rfl

theorem ofDefinitions_toDefinitionsBelow (scope : ScopeId) : (test : Test Rule) →
    ofDefinitions scope (toDefinitionsBelow test) = .ok (withScopeAll scope test.children)
  | .compound cs => ofDefinitions_toDefinitions scope cs
  | .iterate _ cs => ofDefinitions_toDefinitions scope cs
  | .compare .. => rfl
  | .presence _ => rfl

theorem ofDefinitions_toDefinitions (scope : ScopeId) : (rs : List Rule) →
    ofDefinitions scope (toDefinitions rs) = .ok (withScopeAll scope rs)
  | [] => rfl
  | r :: rest => by
    rw [toDefinitions, ofDefinitions, ofDefinition_toDefinition scope r,
      ofDefinitions_toDefinitions scope rest]
    rfl
end

mutual
theorem toDefinition_withScope (scope : ScopeId) : (r : Rule) →
    (r.withScope scope).toDefinition = r.toDefinition
  | ⟨test, op, dependencies, locals, description, _, memo⟩ => by
    rw [withScope, toDefinition, toDefinition, toDefinitions_withScope,
      toDefinitionsBelow_withScope]
    cases test with
    | compare as l r => cases as <;> rfl
    | _ => rfl

theorem toDefinitionsBelow_withScope (scope : ScopeId) : (test : Test Rule) →
    toDefinitionsBelow (withScopeBelow scope test) = toDefinitionsBelow test
  | .compound cs => toDefinitions_withScope scope cs
  | .iterate _ cs => toDefinitions_withScope scope cs
  | .compare .. => rfl
  | .presence _ => rfl

theorem toDefinitions_withScope (scope : ScopeId) : (rs : List Rule) →
    toDefinitions (withScopeAll scope rs) = toDefinitions rs
  | [] => rfl
  | r :: rest => by
    rw [withScopeAll, toDefinitions, toDefinitions, toDefinition_withScope scope r,
      toDefinitions_withScope scope rest]
end

theorem withScopeBelow_assemble {scope : ScopeId} {kind : Kind} {op : Operator}
    {left right : Option Operand} {cs : List Rule} {test : Test Rule}
    (h : assemble kind op left right cs = .ok test) (hcs : withScopeAll scope cs = cs) :
    withScopeBelow scope test = test := by
  unfold assemble at h
  cases kind with
  | compound =>
    dsimp only at h
    split at h
    · cases h
    · cases h
      exact congrArg Test.compound hcs
  | iterate =>
    dsimp only at h
    split at h
    · cases h
    · cases h
      exact congrArg (Test.iterate left) hcs
  | presence =>
    dsimp only at h
    split at h
    · cases h
    · split at h <;> cases h
      rfl
  | primitive | date | time =>
    dsimp only at h
    split at h <;> cases h
    rfl

mutual
/-- A rule that is made in a scope is there with all its nodes, and nothing is kept in it. -/
theorem withScope_ofDefinition (scope : ScopeId) : (d : Definition) → ∀ {r : Rule},
    ofDefinition scope d = .ok r → r.withScope scope = r
  | ⟨description, left, right, kind, operator, locals, dependencies, conditions⟩, r, h => by
    rw [ofDefinition] at h
    obtain ⟨kind, -, h⟩ := bind_eq_ok h
    obtain ⟨op, -, h⟩ := bind_eq_ok h
    obtain ⟨left, -, h⟩ := bind_eq_ok h
    obtain ⟨right, -, h⟩ := bind_eq_ok h
    obtain ⟨cs, hcs, h⟩ := bind_eq_ok h
    obtain ⟨test, htest, h⟩ := bind_eq_ok h
    obtain ⟨locals, -, h⟩ := bind_eq_ok h
    obtain ⟨ds, hds, h⟩ := bind_eq_ok h
    cases h
    rw [withScope, withScopeBelow_assemble htest (withScopeAll_ofDefinitions? scope conditions hcs),
      withScopeAll_ofDefinitions? scope dependencies hds]

theorem withScopeAll_ofDefinitions? (scope : ScopeId) : (ds : Option (List Definition)) →
    ∀ {rs : List Rule}, ofDefinitions? scope ds = .ok rs → withScopeAll scope rs = rs
  | none, _, h => by
    cases h
    rfl
  | some ds, _, h => withScopeAll_ofDefinitions scope ds h

theorem withScopeAll_ofDefinitions (scope : ScopeId) : (ds : List Definition) →
    ∀ {rs : List Rule}, ofDefinitions scope ds = .ok rs → withScopeAll scope rs = rs
  | [], _, h => by
    cases h
    rfl
  | d :: rest, rs, h => by
    rw [ofDefinitions] at h
    obtain ⟨r, hr, h⟩ := bind_eq_ok h
    obtain ⟨more, hmore, h⟩ := bind_eq_ok h
    cases h
    rw [withScopeAll, withScope_ofDefinition scope d hr,
      withScopeAll_ofDefinitions scope rest hmore]
end

/-- Every rule is made again from its definition and from the JSON value of its definition, with
the same definition and the same digest; and every operand and every step is read again from its
plain form. -/
theorem made_again_of_plain (scope : ScopeId) (r : Rule) :
    (∃ r', ofDefinition scope r.toDefinition = .ok r'
        ∧ (Definition.ofJson r.toDefinition.toJson).map (ofDefinition scope) = some (.ok r')
        ∧ r'.toDefinition = r.toDefinition ∧ r'.digest = r.digest)
      ∧ (∀ o : Operand, Operand.ofJson o.toJson = .ok o)
      ∧ ∀ s : Step, Step.ofJson s.toJson = .ok s := by
  have hmade := ofDefinition_toDefinition scope r
  refine ⟨⟨r.withScope scope, hmade, ?_, toDefinition_withScope scope r, digest_withScope scope r⟩,
    Operand.ofJson_toJson, Step.ofJson_toJson⟩
  rw [ofJson_toDefinition, Option.map_some, hmade]

end Rule

end Verdict
