import Verdict.Proofs.Json.Reading
import Verdict.Proofs.Rule.Plain

/-!
# How deep plain forms nest

Every level of a tree of rules puts two levels around the plain form of what is below it, a list and
an object, and the sources of a rule put one or two more into its own.  So the nesting of the plain
form is twice the depth of the tree, give or take one.
-/

namespace Verdict

/-! ## Sources -/

def Json.IsScalar : Json → Prop
  | .null | .bool _ | .num _ | .str _ => True
  | .arr _ | .obj _ => False

theorem Json.IsScalar.nesting_eq_zero {v : Json} (h : v.IsScalar) : v.nesting = 0 := by
  cases v with
  | arr _ | obj _ => cases h
  | _ => rfl

/-- A source without steps: the first value at a path, or a value without parts. -/
inductive Operand.Simple : Operand → Prop
  | path (text : String) : Simple (.path text)
  | literal {v : Json} (hscalar : v.IsScalar) : Simple (.literal v)

/-- The plain form of a simple source is one name with a value that has no parts. -/
theorem Operand.Simple.toJson_eq {o : Operand} (h : o.Simple) :
    ∃ name v, o.toJson = .obj [(name, v)] ∧ v.IsScalar := by
  cases h with
  | path text => exact ⟨"path", .str text, rfl, trivial⟩
  | literal hscalar => exact ⟨"value", _, rfl, hscalar⟩

theorem Operand.Simple.nesting_toJson {o : Operand} (h : o.Simple) : o.toJson.nesting = 1 := by
  obtain ⟨name, v, hv, hscalar⟩ := h.toJson_eq
  rw [hv, Json.nesting, Json.memberNesting, Json.memberNesting, hscalar.nesting_eq_zero]
  rfl

theorem Json.IsScalar.proper {v : Json} (h : v.IsScalar) : v.Proper := by
  cases v with
  | arr _ | obj _ => cases h
  | _ => trivial

theorem Operand.Simple.proper_toJson {o : Operand} (h : o.Simple) : o.toJson.Proper := by
  obtain ⟨name, v, hv, hscalar⟩ := h.toJson_eq
  rw [hv]
  exact ⟨List.pairwise_singleton _ _, hscalar.proper, trivial⟩

/-! ## Definitions -/

namespace Definition

variable {name : String} {o : Option Json} {ms : Members Json}

def optionalNesting (o : Option Json) : Nat :=
  (o.map Json.nesting).getD 0

theorem memberNesting_field :
    Json.memberNesting (field name o ++ ms) = max (optionalNesting o) (Json.memberNesting ms) := by
  cases o with
  | none => exact (Nat.zero_max _).symm
  | some v => rfl

theorem optionalNesting_text (s : Option String) : optionalNesting (s.map .str) = 0 := by
  cases s <;> rfl

theorem nesting_toJson (d : Definition) :
    d.toJson.nesting =
      max (optionalNesting (d.conditions.map fun ds => .arr (toItems ds)))
        (max (optionalNesting (d.dependencies.map fun ds => .arr (toItems ds)))
          (max (optionalNesting d.left)
            (max (optionalNesting d.right) (optionalNesting (d.locals.map .obj))))) + 1 := by
  rw [toJson_eq, Json.nesting]
  simp only [memberNesting_field, optionalNesting_text, Json.memberNesting, Nat.zero_max,
    Nat.max_zero]

/-- The members of the plain form stand in order, whichever of them are there. -/
theorem sorted_of_toJson {d : Definition} (h : d.toJson = .obj ms) : Members.Sorted ms := by
  obtain ⟨description, left, right, kind, operator, locals, dependencies, conditions⟩ := d
  rw [toJson, Json.object] at h
  cases h
  exact Members.Sorted.gather _

theorem forall_mem_field {p : String × Json → Prop} :
    (∀ m ∈ field name o, p m) ↔ ∀ v ∈ o, p (name, v) := by
  cases o <;> simp [field]

theorem proper_toJson {d : Definition} (hleft : ∀ v ∈ d.left, v.Proper)
    (hright : ∀ v ∈ d.right, v.Proper) (hlocals : ∀ ms ∈ d.locals, (Json.obj ms).Proper)
    (hdependencies : ∀ ds ∈ d.dependencies, ∀ v ∈ toItems ds, v.Proper)
    (hconditions : ∀ ds ∈ d.conditions, ∀ v ∈ toItems ds, v.Proper) : d.toJson.Proper := by
  have hsorted := sorted_of_toJson d.toJson_eq
  rw [toJson_eq]
  refine ⟨hsorted, Json.properMembers_iff.mpr ?_⟩
  have htext : ∀ (s : Option String), ∀ v ∈ s.map Json.str, v.Proper := by
    intro s v hv
    obtain ⟨_, -, rfl⟩ := Option.mem_map.mp hv
    trivial
  have hitems : ∀ {ds : Option (List Definition)}, (∀ es ∈ ds, ∀ v ∈ toItems es, v.Proper) →
      ∀ v ∈ ds.map fun es => Json.arr (toItems es), v.Proper := by
    intro ds hds v hv
    obtain ⟨es, hes, rfl⟩ := Option.mem_map.mp hv
    exact Json.properItems_iff.mpr (hds es hes)
  simp only [List.forall_mem_append, forall_mem_field]
  refine ⟨hitems hconditions, hitems hdependencies, htext _, hleft, htext _, hright, htext _, ?_,
    List.forall_mem_nil _⟩
  intro v hv
  obtain ⟨ms, hms, rfl⟩ := Option.mem_map.mp hv
  exact hlocals ms hms

end Definition

namespace Rule

/-! ## Rules with simple sources -/

/-- The sources of a rule and of its variables are simple. -/
structure HasSimpleSources (r : Rule) : Prop where
  left : ∀ o ∈ r.left, o.Simple
  right : ∀ o ∈ r.right, o.Simple
  locals : ∀ l ∈ r.locals, l.2.Simple
  sorted : Members.Sorted r.locals

/-- All sources in a tree are simple. -/
def Simple (r : Rule) : Prop :=
  ∀ n ∈ r.nodes, n.HasSimpleSources

theorem proper_of_source {o : Option Operand} (h : ∀ p ∈ o, p.Simple) :
    ∀ v ∈ o.map Operand.toJson, v.Proper := by
  intro v hv
  obtain ⟨p, hp, rfl⟩ := Option.mem_map.mp hv
  exact (h p hp).proper_toJson

theorem proper_plainVariables {locals : Members Operand} (h : ∀ l ∈ locals, l.2.Simple)
    (hsorted : Members.Sorted locals) : (Json.obj (plainVariables locals)).Proper := by
  refine ⟨?_, Json.properMembers_iff.mpr ?_⟩
  · rw [Members.Sorted, Members.names, plainVariables, List.map_map]
    exact hsorted
  · intro m hm
    obtain ⟨l, hl, rfl⟩ := List.mem_map.mp hm
    exact (h l hl).proper_toJson

theorem forall_mem_someUnlessEmpty {α : Type} {xs : List α} {p : List α → Prop} (h : p xs) :
    ∀ ys ∈ someUnlessEmpty xs, p ys := by
  intro ys hys
  cases xs with
  | nil => cases hys
  | cons x rest =>
    cases hys
    exact h

theorem Simple.node {r : Rule} (h : r.Simple) : r.HasSimpleSources :=
  h r (mem_nodes_self r)

mutual
/-- The plain form of a tree with simple sources is read again. -/
theorem proper_toDefinition : (r : Rule) → r.Simple → r.toDefinition.toJson.Proper
  | ⟨test, op, dependencies, locals, description, scope, memo⟩, h => by
    have hnode := h.node
    rw [Simple, nodes, List.forall_mem_cons, List.forall_mem_append] at h
    rw [toDefinition]
    exact Definition.proper_toJson (proper_of_source hnode.left) (proper_of_source hnode.right)
      (forall_mem_someUnlessEmpty (proper_plainVariables hnode.locals hnode.sorted))
      (forall_mem_someUnlessEmpty (proper_toDefinitions dependencies h.2.2))
      (forall_mem_someUnlessEmpty (proper_toDefinitionsBelow test h.2.1))

theorem proper_toDefinitionsBelow : (test : Test Rule) →
    (∀ n ∈ nodesBelow test, n.HasSimpleSources) →
    ∀ v ∈ Definition.toItems (toDefinitionsBelow test), v.Proper
  | .compound cs, h => proper_toDefinitions cs h
  | .iterate _ cs, h => proper_toDefinitions cs h
  | .compare .., _ => nofun
  | .presence _, _ => nofun

theorem proper_toDefinitions : (rs : List Rule) → (∀ n ∈ nodesAll rs, n.HasSimpleSources) →
    ∀ v ∈ Definition.toItems (toDefinitions rs), v.Proper
  | [], _ => nofun
  | r :: rest, h => by
    rw [nodesAll, List.forall_mem_append] at h
    rw [toDefinitions, Definition.toItems, List.forall_mem_cons]
    exact ⟨proper_toDefinition r h.1, proper_toDefinitions rest h.2⟩
end

/-! ## Nesting and depth -/

section Nesting

open Definition (optionalNesting toItems)

theorem optionalNesting_source {o : Option Operand} (h : ∀ p ∈ o, p.Simple) :
    optionalNesting (o.map Operand.toJson) ≤ 1 := by
  cases o with
  | none => exact Nat.zero_le 1
  | some p => exact (h p rfl).nesting_toJson.le

theorem optionalNesting_variables {locals : Members Operand} (h : ∀ l ∈ locals, l.2.Simple) :
    optionalNesting ((someUnlessEmpty (plainVariables locals)).map .obj) ≤ 2 := by
  have hle : Json.memberNesting (plainVariables locals) ≤ 1 := by
    induction locals with
    | nil => exact Nat.zero_le 1
    | cons l rest ih =>
      obtain ⟨hl, hrest⟩ := List.forall_mem_cons.mp h
      exact max_le hl.nesting_toJson.le (ih hrest)
  cases locals with
  | nil => exact Nat.zero_le 2
  | cons l rest => exact Nat.succ_le_succ hle

/-- The plain forms of some rules nest as their depth says. -/
structure Fits (depth : Nat) (ds : List Definition) : Prop where
  nil : ds = [] → depth = 0
  low : 2 * depth ≤ Json.itemNesting (toItems ds) + 1
  high : Json.itemNesting (toItems ds) ≤ 2 * depth + 1

/-- A list of rules that is there at all is one level itself. -/
theorem Fits.bounds {depth : Nat} {ds : List Definition} (h : Fits depth ds) :
    2 * depth ≤ optionalNesting ((someUnlessEmpty ds).map fun ds => .arr (toItems ds)) ∧
      optionalNesting ((someUnlessEmpty ds).map fun ds => .arr (toItems ds)) ≤ 2 * depth + 2 := by
  cases ds with
  | nil =>
    rw [h.nil rfl]
    exact ⟨le_rfl, Nat.zero_le 2⟩
  | cons d rest => exact ⟨h.low, Nat.succ_le_succ h.high⟩

mutual
/-- The plain form nests twice as deep as the tree, give or take one. -/
theorem nesting_toDefinition : (r : Rule) → r.Simple →
    2 * r.depth ≤ r.toDefinition.toJson.nesting + 1 ∧
      r.toDefinition.toJson.nesting ≤ 2 * r.depth + 1
  | ⟨test, op, dependencies, locals, description, scope, memo⟩, h => by
    have hnode := h.node
    rw [Simple, nodes, List.forall_mem_cons, List.forall_mem_append] at h
    have hbelow := (fits_toDefinitionsBelow test h.2.1).bounds
    have hdependencies := (fits_toDefinitions dependencies h.2.2).bounds
    have hleft := optionalNesting_source hnode.left
    have hright := optionalNesting_source hnode.right
    have hlocals := optionalNesting_variables hnode.locals
    rw [toDefinition, Definition.nesting_toJson, depth]
    dsimp only [left, right] at hleft hright hlocals ⊢
    omega

theorem fits_toDefinitionsBelow : (test : Test Rule) →
    (∀ n ∈ nodesBelow test, n.HasSimpleSources) → Fits (depthOfTest test) (toDefinitionsBelow test)
  | .compound cs, h => fits_toDefinitions cs h
  | .iterate _ cs, h => fits_toDefinitions cs h
  | .compare .., _ => ⟨fun _ => rfl, Nat.zero_le _, Nat.zero_le _⟩
  | .presence _, _ => ⟨fun _ => rfl, Nat.zero_le _, Nat.zero_le _⟩

theorem fits_toDefinitions : (rs : List Rule) → (∀ n ∈ nodesAll rs, n.HasSimpleSources) →
    Fits (depthOfAll rs) (toDefinitions rs)
  | [], _ => ⟨fun _ => rfl, Nat.zero_le _, Nat.zero_le _⟩
  | r :: rest, h => by
    rw [nodesAll, List.forall_mem_append] at h
    obtain ⟨hlow, hhigh⟩ := nesting_toDefinition r h.1
    have hrest := fits_toDefinitions rest h.2
    have hlow' := hrest.low
    have hhigh' := hrest.high
    refine ⟨nofun, ?_, ?_⟩ <;>
    · rw [toDefinitions, Definition.toItems, Json.itemNesting, depthOfAll]
      omega
end

end Nesting

mutual
theorem depth_withScope (scope : ScopeId) : (r : Rule) → (r.withScope scope).depth = r.depth
  | ⟨test, op, dependencies, locals, description, _, memo⟩ => by
    rw [withScope, depth, depth, depthOfTest_withScope, depthOfAll_withScope]

theorem depthOfTest_withScope (scope : ScopeId) : (test : Test Rule) →
    depthOfTest (withScopeBelow scope test) = depthOfTest test
  | .compound cs => depthOfAll_withScope scope cs
  | .iterate _ cs => depthOfAll_withScope scope cs
  | .compare .. => rfl
  | .presence _ => rfl

theorem depthOfAll_withScope (scope : ScopeId) : (rs : List Rule) →
    depthOfAll (withScopeAll scope rs) = depthOfAll rs
  | [] => rfl
  | r :: rest => by
    rw [withScopeAll, depthOfAll, depthOfAll, depth_withScope scope r,
      depthOfAll_withScope scope rest]
end

end Rule

end Verdict
