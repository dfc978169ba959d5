import Verdict.Proofs.Rule.Nesting

/-!
# What is read from the text of a rule

The plain form of a tree with simple sources is read as the plain form of the same tree, but for
numbers in literals that come back as others.
-/

namespace Verdict

/-! ## Sources -/

namespace Operand

/-- The source with a literal as its text is read. -/
def asRead : Operand → Operand
  | ⟨.literal v, steps⟩ => ⟨.literal v.asRead, steps⟩
  | o => o

theorem Simple.toJson_asRead {o : Operand} (h : o.Simple) : o.asRead.toJson = o.toJson.asRead := by
  cases h with
  | path text => rfl
  | literal hscalar => rfl

end Operand

/-! ## Definitions -/

namespace Definition

variable {name : String} {o : Option Json} {ms : Members Json}

theorem asReadMembers_field :
    Json.asReadMembers (field name o ++ ms) =
      field name (o.map Json.asRead) ++ Json.asReadMembers ms := by
  cases o <;> rfl

end Definition

namespace Rule

mutual
/-- The tree with the literals in it as their texts are read. -/
def asRead : Rule → Rule
  | ⟨test, op, dependencies, locals, description, scope, memo⟩ =>
    ⟨asReadBelow test, op, asReadAll dependencies, locals.map fun (name, o) => (name, o.asRead),
      description, scope, memo⟩

def asReadBelow : Test Rule → Test Rule
  | .compare as left right => .compare as (left.map Operand.asRead) (right.map Operand.asRead)
  | .compound cs => .compound (asReadAll cs)
  | .iterate left cs => .iterate (left.map Operand.asRead) (asReadAll cs)
  | .presence left => .presence (left.map Operand.asRead)

def asReadAll : List Rule → List Rule
  | [] => []
  | r :: rest => asRead r :: asReadAll rest
end

mutual
theorem depth_asRead : (r : Rule) → r.asRead.depth = r.depth
  | ⟨test, op, dependencies, locals, description, scope, memo⟩ => by
    rw [asRead, depth, depth, depthOfTest_asRead, depthOfAll_asRead]

theorem depthOfTest_asRead : (test : Test Rule) → depthOfTest (asReadBelow test) = depthOfTest test
  | .compound cs => depthOfAll_asRead cs
  | .iterate _ cs => depthOfAll_asRead cs
  | .compare .. => rfl
  | .presence _ => rfl

theorem depthOfAll_asRead : (rs : List Rule) → depthOfAll (asReadAll rs) = depthOfAll rs
  | [] => rfl
  | r :: rest => by
    rw [asReadAll, depthOfAll, depthOfAll, depth_asRead r, depthOfAll_asRead rest]
end

theorem left_asReadBelow (test : Test Rule) :
    (asReadBelow test).left = test.left.map Operand.asRead := by
  cases test <;> rfl

theorem right_asReadBelow (test : Test Rule) :
    (asReadBelow test).right = test.right.map Operand.asRead := by
  cases test <;> rfl

theorem kind_asReadBelow (test : Test Rule) : (asReadBelow test).kind = test.kind := by
  cases test with
  | compare as left right => cases as <;> rfl
  | _ => rfl

theorem map_toJson_asRead {o : Option Operand} (h : ∀ p ∈ o, p.Simple) :
    (o.map Operand.toJson).map Json.asRead = (o.map Operand.asRead).map Operand.toJson := by
  cases o with
  | none => rfl
  | some p => exact congrArg some (h p rfl).toJson_asRead.symm

theorem asReadMembers_plainVariables {locals : Members Operand} (h : ∀ l ∈ locals, l.2.Simple) :
    Json.asReadMembers (plainVariables locals) =
      plainVariables (locals.map fun (name, o) => (name, o.asRead)) := by
  induction locals with
  | nil => rfl
  | cons l rest ih =>
    obtain ⟨hl, hrest⟩ := List.forall_mem_cons.mp h
    obtain ⟨name, o⟩ := l
    change (name, o.toJson.asRead) :: Json.asReadMembers (plainVariables rest) = _
    rw [ih hrest, ← hl.toJson_asRead]
    rfl

theorem map_variables_asRead {locals : Members Operand} (h : ∀ l ∈ locals, l.2.Simple) :
    ((someUnlessEmpty (plainVariables locals)).map .obj).map Json.asRead =
      (someUnlessEmpty (plainVariables (locals.map fun (name, o) => (name, o.asRead)))).map
        .obj := by
  have hmembers := asReadMembers_plainVariables h
  cases locals with
  | nil => rfl
  | cons l rest => exact congrArg (some ∘ Json.obj) hmembers

section

open Definition (toItems)

theorem map_items_asRead {ds es : List Definition}
    (h : Json.asReadItems (toItems ds) = toItems es) :
    ((someUnlessEmpty ds).map fun ds => .arr (toItems ds)).map Json.asRead =
      (someUnlessEmpty es).map fun es => .arr (toItems es) := by
  cases ds with
  | nil =>
    cases es with
    | nil => rfl
    | cons e es => cases h
  | cons d ds =>
    cases es with
    | nil => cases h
    | cons e es => exact congrArg (some ∘ Json.arr) h

mutual
/-- The plain form as it is read is that of the tree with its literals as they are read. -/
theorem asRead_toDefinition : (r : Rule) → r.Simple →
    r.toDefinition.toJson.asRead = r.asRead.toDefinition.toJson
  | ⟨test, op, dependencies, locals, description, scope, memo⟩, h => by
    have hnode := h.node
    rw [Simple, nodes, List.forall_mem_cons, List.forall_mem_append] at h
    have hbelow := map_items_asRead (asRead_toDefinitionsBelow test h.2.1)
    have hdependencies := map_items_asRead (asRead_toDefinitions dependencies h.2.2)
    have hleft : (test.left.map Operand.toJson).map Json.asRead = _ := map_toJson_asRead hnode.left
    have hright : (test.right.map Operand.toJson).map Json.asRead = _ :=
      map_toJson_asRead hnode.right
    have hlocals := map_variables_asRead hnode.locals
    have htext : ∀ s : Option String, (s.map Json.str).map Json.asRead = s.map Json.str := by
      rintro (_ | s) <;> rfl
    rw [asRead, Definition.toJson_eq, Definition.toJson_eq, Json.asRead]
    simp only [Definition.asReadMembers_field, toDefinition, htext, hbelow, hdependencies, hleft,
      hright, hlocals, left_asReadBelow, right_asReadBelow, kind_asReadBelow]
    rfl

theorem asRead_toDefinitionsBelow : (test : Test Rule) →
    (∀ n ∈ nodesBelow test, n.HasSimpleSources) →
    Json.asReadItems (toItems (toDefinitionsBelow test)) =
      toItems (toDefinitionsBelow (asReadBelow test))
  | .compound cs, h => asRead_toDefinitions cs h
  | .iterate _ cs, h => asRead_toDefinitions cs h
  | .compare .., _ => rfl
  | .presence _, _ => rfl

theorem asRead_toDefinitions : (rs : List Rule) → (∀ n ∈ nodesAll rs, n.HasSimpleSources) →
    Json.asReadItems (toItems (toDefinitions rs)) = toItems (toDefinitions (asReadAll rs))
  | [], _ => rfl
  | r :: rest, h => by
    rw [nodesAll, List.forall_mem_append] at h
    exact congrArg₂ List.cons (asRead_toDefinition r h.1) (asRead_toDefinitions rest h.2)
end

end

/-- The text of a tree with simple sources is read as the tree with its literals as they are read,
unless too much nests in it or a number has no value. -/
theorem read_text_toJson {r : Rule} (h : r.Simple) :
    Json.read r.toJson.text =
      if r.toJson.nesting ≤ Document.maxNesting ∧ Json.HaveValues r.toJson.numbers then
        some r.asRead.toJson else none := by
  have hasRead : r.toJson.asRead = r.asRead.toJson := asRead_toDefinition r h
  rw [Json.read_text (show r.toJson.Proper from proper_toDefinition r h), hasRead]

theorem digest_eq_of_toJson {r s : Rule} (h : r.toJson = s.toJson) : r.digest = s.digest := by
  have hsome : some r.toDefinition = some s.toDefinition := by
    rw [← ofJson_toDefinition r, ← ofJson_toDefinition s]
    exact congrArg Definition.ofJson h
  have hr := ofDefinition_toDefinition ⟨0⟩ r
  rw [Option.some.inj hsome, ofDefinition_toDefinition] at hr
  rw [← digest_withScope ⟨0⟩ r, ← digest_withScope ⟨0⟩ s, Except.ok.inj hr]

theorem digest_asRead {r : Rule} (hr : r.Simple) (h : Json.ComeBack r.toJson.numbers) :
    r.asRead.digest = r.digest := by
  have hplain : r.toJson.asRead = r.asRead.toJson := asRead_toDefinition r hr
  exact digest_eq_of_toJson (hplain.symm.trans (Json.asRead_eq_self _ h))

end Rule

end Verdict
