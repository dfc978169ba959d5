import Verdict.Rule.Edit

/-!
# Trees of rules

The nodes of a tree, and a tree without what its digest does not count: descriptions and kept
checks are left out, and scopes may be moved.
-/

namespace Verdict.Rule

/-! ## Nodes -/

mutual
def nodes : Rule → List Rule
  | ⟨test, op, dependencies, locals, description, scope, memo⟩ =>
    ⟨test, op, dependencies, locals, description, scope, memo⟩
      :: (nodesBelow test ++ nodesAll dependencies)

def nodesBelow : Test Rule → List Rule
  | .compound cs => nodesAll cs
  | .iterate _ cs => nodesAll cs
  | .compare .. => []
  | .presence _ => []

def nodesAll : List Rule → List Rule
  | [] => []
  | r :: rest => nodes r ++ nodesAll rest
end

theorem nodes_eq (r : Rule) : r.nodes = r :: (nodesBelow r.test ++ nodesAll r.dependencies) := by
  obtain ⟨test, op, dependencies, locals, description, scope, memo⟩ := r
  rw [nodes]

theorem mem_nodes_self (r : Rule) : r ∈ r.nodes := by
  rw [nodes_eq]
  exact List.mem_cons_self

theorem nodesBelow_eq (test : Test Rule) : nodesBelow test = nodesAll test.children := by
  cases test <;> rfl

theorem mem_nodesAll {n : Rule} {rs : List Rule} :
    n ∈ nodesAll rs ↔ ∃ r ∈ rs, n ∈ r.nodes := by
  induction rs with
  | nil => simp [nodesAll]
  | cons r rest ih => simp [nodesAll, ih]

mutual
theorem nodes_subset {n : Rule} : (r : Rule) → n ∈ r.nodes → n.nodes ⊆ r.nodes
  | ⟨test, op, dependencies, locals, description, scope, memo⟩, h => by
    rw [nodes, List.mem_cons, List.mem_append] at h
    rcases h with rfl | h | h
    · exact fun _ => id
    · intro x hx
      rw [nodes]
      exact List.mem_cons_of_mem _ (List.mem_append_left _ (nodes_subset_below test h hx))
    · intro x hx
      rw [nodes]
      exact List.mem_cons_of_mem _ (List.mem_append_right _ (nodes_subset_all dependencies h hx))

theorem nodes_subset_below {n : Rule} : (test : Test Rule) → n ∈ nodesBelow test →
    n.nodes ⊆ nodesBelow test
  | .compound cs, h => nodes_subset_all cs h
  | .iterate _ cs, h => nodes_subset_all cs h
  | .compare .., h => nomatch h
  | .presence _, h => nomatch h

theorem nodes_subset_all {n : Rule} : (rs : List Rule) → n ∈ nodesAll rs → n.nodes ⊆ nodesAll rs
  | [], h => nomatch h
  | r :: rest, h => by
    rw [nodesAll]
    rcases List.mem_append.mp h with h | h
    · exact fun x hx => List.mem_append_left _ (nodes_subset r h hx)
    · exact fun x hx => List.mem_append_right _ (nodes_subset_all rest h hx)
end

theorem nodesBelow_withChildren {n : Rule} {test : Test Rule} {cs : List Rule}
    (h : n ∈ nodesBelow (test.withChildren cs)) : n ∈ nodesAll cs := by
  cases test with
  | compound _ => exact h
  | iterate _ _ => exact h
  | compare c l r => cases h
  | presence l => cases h

theorem nodes_subset_child {r c : Rule} {i : Nat} (h : r.children[i]? = some c) :
    c.nodes ⊆ nodesBelow r.test := by
  intro n hn
  rw [nodesBelow_eq, mem_nodesAll]
  exact ⟨c, List.mem_of_getElem? h, hn⟩

theorem nodes_subset_dependency {r d : Rule} {i : Nat} (h : r.dependencies[i]? = some d) :
    d.nodes ⊆ nodesAll r.dependencies := by
  intro n hn
  rw [mem_nodesAll]
  exact ⟨d, List.mem_of_getElem? h, hn⟩

/-- After a change at one place, the nodes are old ones or stand at that place. -/
theorem mem_nodesAll_modify {n r : Rule} {rs : List Rule} {i : Nat} {f : Rule → Rule}
    (hr : rs[i]? = some r) (h : n ∈ nodesAll (rs.modify i f)) :
    n ∈ (f r).nodes ∨ n ∈ nodesAll rs := by
  obtain ⟨x, hx, hn⟩ := mem_nodesAll.mp h
  rw [List.modify_eq_set, hr] at hx
  rcases List.mem_or_eq_of_mem_set hx with hx | rfl
  · exact .inr (mem_nodesAll.mpr ⟨x, hx, hn⟩)
  · exact .inl hn

/-! ## Bare trees -/

mutual
/-- The tree without descriptions and kept checks, with its scopes moved. -/
def bare (move : ScopeId → ScopeId) : Rule → Rule
  | ⟨test, op, dependencies, locals, _, scope, _⟩ =>
    ⟨bareBelow move test, op, bareAll move dependencies, locals, none, move scope, none⟩

def bareBelow (move : ScopeId → ScopeId) : Test Rule → Test Rule
  | .compound cs => .compound (bareAll move cs)
  | .iterate l cs => .iterate l (bareAll move cs)
  | .compare c l r => .compare c l r
  | .presence l => .presence l

def bareAll (move : ScopeId → ScopeId) : List Rule → List Rule
  | [] => []
  | r :: rest => bare move r :: bareAll move rest
end

/-- The tree with nothing but what its digest counts. -/
def essence (r : Rule) : Rule :=
  r.bare fun _ => ⟨0⟩

variable {move : ScopeId → ScopeId}

theorem bareAll_eq_map (rs : List Rule) : bareAll move rs = rs.map (bare move) := by
  induction rs with
  | nil => rfl
  | cons r rest ih => rw [bareAll, ih, List.map_cons]

section Kept

variable (move)

@[simp]
theorem kind_bareBelow (test : Test Rule) : (bareBelow move test).kind = test.kind := by
  cases test with
  | compare c l r => rfl
  | _ => rfl

theorem scope_bare (r : Rule) : (r.bare move).scope = move r.scope := by
  obtain ⟨test, op, dependencies, locals, description, scope, memo⟩ := r
  rfl

mutual
theorem nodes_bare : (r : Rule) → (r.bare move).nodes = r.nodes.map (bare move)
  | ⟨test, op, dependencies, locals, description, scope, memo⟩ => by
    rw [nodes, List.map_cons, List.map_append, ← nodesBelow_bare test, ← nodesAll_bare dependencies,
      bare, nodes]

theorem nodesBelow_bare : (test : Test Rule) →
    nodesBelow (bareBelow move test) = (nodesBelow test).map (bare move)
  | .compound cs => nodesAll_bare cs
  | .iterate _ cs => nodesAll_bare cs
  | .compare .. => rfl
  | .presence _ => rfl

theorem nodesAll_bare : (rs : List Rule) →
    nodesAll (bareAll move rs) = (nodesAll rs).map (bare move)
  | [] => rfl
  | r :: rest => by
    rw [bareAll, nodesAll, nodesAll, List.map_append, nodes_bare r, nodesAll_bare rest]
end

@[simp]
theorem left_bareBelow (test : Test Rule) : (bareBelow move test).left = test.left := by
  cases test <;> rfl

@[simp]
theorem right_bareBelow (test : Test Rule) : (bareBelow move test).right = test.right := by
  cases test <;> rfl

mutual
@[simp]
theorem digest_bare : (r : Rule) → (r.bare move).digest = r.digest
  | ⟨test, op, dependencies, locals, description, scope, memo⟩ => by
    rw [bare, digest, digest, digestBelow_bare, digestAll_bare, kind_bareBelow, left_bareBelow,
      right_bareBelow]

theorem digestBelow_bare : (test : Test Rule) →
    digestBelow (bareBelow move test) = digestBelow test
  | .compound cs => digestAll_bare cs
  | .iterate _ cs => digestAll_bare cs
  | .compare .. => rfl
  | .presence _ => rfl

theorem digestAll_bare : (rs : List Rule) → digestAll (bareAll move rs) = digestAll rs
  | [] => rfl
  | r :: rest => by
    rw [bareAll, digestAll, digestAll, digest_bare r, digestAll_bare rest]
end

end Kept

theorem digest_eq_of_bare {a b : Rule} (h : a.bare move = b.bare move) : a.digest = b.digest := by
  rw [← digest_bare move a, h, digest_bare]

theorem scope_eq_of_bare {a b : Rule} (h : a.bare id = b.bare id) : a.scope = b.scope := by
  have hscope := congrArg scope h
  rwa [scope_bare, scope_bare] at hscope

mutual
theorem bare_withScope (scope : ScopeId) : (r : Rule) →
    (r.withScope scope).bare move = r.bare fun _ => move scope
  | ⟨test, op, dependencies, locals, description, _, memo⟩ => by
    rw [withScope, bare, bare, bareBelow_withScope, bareAll_withScope]

theorem bareBelow_withScope (scope : ScopeId) : (test : Test Rule) →
    bareBelow move (withScopeBelow scope test) = bareBelow (fun _ => move scope) test
  | .compound cs => congrArg Test.compound (bareAll_withScope scope cs)
  | .iterate l cs => congrArg (Test.iterate l) (bareAll_withScope scope cs)
  | .compare .. => rfl
  | .presence _ => rfl

theorem bareAll_withScope (scope : ScopeId) : (rs : List Rule) →
    bareAll move (withScopeAll scope rs) = bareAll (fun _ => move scope) rs
  | [] => rfl
  | r :: rest => by
    rw [withScopeAll, bareAll, bareAll, bare_withScope scope r, bareAll_withScope scope rest]
end

mutual
theorem mem_nodes_withScope (scope : ScopeId) : (r : Rule) →
    ∀ n ∈ (r.withScope scope).nodes, n.scope = scope ∧ n.memo = none
  | ⟨test, op, dependencies, locals, description, _, memo⟩ => by
    rw [withScope, nodes, List.forall_mem_cons, List.forall_mem_append]
    exact ⟨⟨rfl, rfl⟩, mem_nodesBelow_withScope scope test,
      mem_nodesAll_withScope scope dependencies⟩

theorem mem_nodesBelow_withScope (scope : ScopeId) : (test : Test Rule) →
    ∀ n ∈ nodesBelow (withScopeBelow scope test), n.scope = scope ∧ n.memo = none
  | .compound cs => mem_nodesAll_withScope scope cs
  | .iterate _ cs => mem_nodesAll_withScope scope cs
  | .compare .. => List.forall_mem_nil _
  | .presence _ => List.forall_mem_nil _

theorem mem_nodesAll_withScope (scope : ScopeId) : (rs : List Rule) →
    ∀ n ∈ nodesAll (withScopeAll scope rs), n.scope = scope ∧ n.memo = none
  | [] => List.forall_mem_nil _
  | r :: rest => by
    rw [withScopeAll, nodesAll, List.forall_mem_append]
    exact ⟨mem_nodes_withScope scope r, mem_nodesAll_withScope scope rest⟩
end

theorem digest_withScope (scope : ScopeId) (r : Rule) : (r.withScope scope).digest = r.digest := by
  rw [← digest_bare id, bare_withScope, digest_bare]

theorem bareBelow_withChildren {test : Test Rule} {cs : List Rule}
    (h : bareAll move cs = bareAll move test.children) :
    bareBelow move (test.withChildren cs) = bareBelow move test := by
  cases test with
  | compound _ => exact congrArg Test.compound h
  | iterate l _ => exact congrArg (Test.iterate l) h
  | compare c l r => rfl
  | presence l => rfl

/-- A change at one place that does not show in the bare tree there shows nowhere. -/
theorem bareAll_modify {r : Rule} {rs : List Rule} {i : Nat} {f : Rule → Rule}
    (hr : rs[i]? = some r) (hf : (f r).bare move = r.bare move) :
    bareAll move (rs.modify i f) = bareAll move rs := by
  rw [bareAll_eq_map, bareAll_eq_map]
  apply List.ext_getElem?
  intro j
  by_cases hij : i = j
  · subst hij
    simp [hf, hr]
  · simp [hij]

/-! ## Ways down -/

theorem node?_child {r n : Rule} {i : Nat} {way : List Branch}
    (h : r.node? (.child i :: way) = some n) :
    ∃ c, r.children[i]? = some c ∧ c.node? way = some n := by
  rw [node?] at h
  cases hc : r.children[i]? with
  | none => simp [hc] at h
  | some c => exact ⟨c, rfl, by simpa [hc] using h⟩

theorem node?_dependency {r n : Rule} {i : Nat} {way : List Branch}
    (h : r.node? (.dependency i :: way) = some n) :
    ∃ d, r.dependencies[i]? = some d ∧ d.node? way = some n := by
  rw [node?] at h
  cases hd : r.dependencies[i]? with
  | none => simp [hd] at h
  | some d => exact ⟨d, rfl, by simpa [hd] using h⟩

theorem nodes_subset_node? {n : Rule} {way : List Branch} :
    {r : Rule} → r.node? way = some n → n.nodes ⊆ r.nodes := by
  induction way with
  | nil =>
    intro r h
    cases h
    exact fun _ => id
  | cons b way ih =>
    intro r h m hm
    rw [nodes_eq, List.mem_cons, List.mem_append]
    cases b with
    | child i =>
      obtain ⟨c, hc, hn⟩ := node?_child h
      exact .inr (.inl (nodes_subset_child hc (ih hn hm)))
    | dependency i =>
      obtain ⟨d, hd, hn⟩ := node?_dependency h
      exact .inr (.inr (nodes_subset_dependency hd (ih hn hm)))

/-- Another node with the same bare tree leaves the whole bare tree as it is. -/
theorem bare_setNode {n n' : Rule} (hbare : n'.bare move = n.bare move) {way : List Branch} :
    {r : Rule} → r.node? way = some n → (r.setNode n' way).bare move = r.bare move := by
  induction way with
  | nil =>
    intro r h
    cases h
    exact hbare
  | cons b way ih =>
    rintro ⟨test, op, dependencies, locals, description, scope, memo⟩ h
    cases b with
    | child i =>
      obtain ⟨c, hc, hn⟩ := node?_child h
      rw [setNode, bare, bare, bareBelow_withChildren]
      exact bareAll_modify hc (ih hn)
    | dependency i =>
      obtain ⟨d, hd, hn⟩ := node?_dependency h
      rw [setNode, bare, bare, bareAll_modify hd (ih hn)]

/-- What depends on scope and memo of nodes only holds of a tree with another node in some place if
it holds of the tree and of that node. -/
theorem forall_nodes_setNode {Q : Rule → Prop}
    (hlocal : ∀ a b : Rule, a.scope = b.scope → a.memo = b.memo → Q a → Q b) {n n' : Rule}
    (hn' : ∀ x ∈ n'.nodes, Q x) {way : List Branch} : {r : Rule} → r.node? way = some n →
      (∀ x ∈ r.nodes, Q x) → ∀ x ∈ (r.setNode n' way).nodes, Q x := by
  induction way with
  | nil => exact fun _ _ => hn'
  | cons b way ih =>
    rintro r h hr x hx
    rw [nodes_eq, List.forall_mem_cons, List.forall_mem_append] at hr
    obtain ⟨hself, hbelow, hdepend⟩ := hr
    rw [nodes_eq, List.mem_cons, List.mem_append] at hx
    cases b with
    | child i =>
      obtain ⟨c, hc, hn⟩ := node?_child h
      rcases hx with rfl | hx | hx
      · exact hlocal r _ rfl rfl hself
      · rcases mem_nodesAll_modify hc (nodesBelow_withChildren hx) with hx | hx
        · exact ih hn (fun y hy => hbelow y (nodes_subset_child hc hy)) x hx
        · exact hbelow x (nodesBelow_eq r.test ▸ hx)
      · exact hdepend x hx
    | dependency i =>
      obtain ⟨d, hd, hn⟩ := node?_dependency h
      rcases hx with rfl | hx | hx
      · exact hlocal r _ rfl rfl hself
      · exact hbelow x hx
      · rcases mem_nodesAll_modify hd hx with hx | hx
        · exact ih hn (fun y hy => hdepend y (nodes_subset_dependency hd hy)) x hx
        · exact hdepend x hx

end Verdict.Rule
