import Verdict.Proofs.Rule.Digest

/-!
# Editing between compilations

Trees are changed, put together, copied and moved between compilations, and the checks kept in
them stay where they are.  A kept check counts again as soon as the digest of its node is the one
that it was made with.  That is right as long as each tree keeps to scopes whose locales write
numbers alike: then every kept check was made of a tree with its digest and with its locale, so it
says what every such tree means.
-/

namespace Verdict.Rule

/-! ## Edits -/

/-- Changes of a node.  What is added to it or put in its place keeps its scopes. -/
inductive Edit where
  | operator (op : Operator)
  | left (o : Option Operand)
  | right (o : Option Operand)
  | description (text : Option String)
  | bind (name : String) (o : Operand)
  | unbind (name : String)
  | pushChild (c : Rule)
  | removeChild (i : Nat)
  | pushDependency (d : Rule)
  | removeDependency (i : Nat)
  | become (r : Rule)

namespace Edit

def guest? : Edit → Option Rule
  | pushChild c => some c
  | pushDependency d => some d
  | become r => some r
  | _ => none

/-- The node after a change that it has a place for. -/
def apply (n : Rule) : Edit → Option Rule
  | operator op => some (n.setOperator op)
  | left o => (n.setLeft o).toOption
  | right o => (n.setRight o).toOption
  | description text => some (n.setDescription text)
  | bind name o => some (n.setVariable name o)
  | unbind name => some (n.removeVariable name)
  | pushChild c => n.pushChild c
  | removeChild i => (n.removeChild i).map (·.2)
  | pushDependency d => some (n.pushDependency d)
  | removeDependency i => (n.removeDependency i).map (·.2)
  | become r => some r

end Edit

/-- All nodes of a tree are in scopes of one family. -/
def Akin {ι : Type} (family : ScopeId → ι) (r : Rule) : Prop :=
  ∀ n ∈ r.nodes, family n.scope = family r.scope

/-- The trees that can come about when only scopes of one family meet in a tree.  Every tree stays
at hand, so that edits may use it again as it was.  `known` holds the texts behind the digests of
all trees that were compiled. -/
inductive AtHand {ι : Type} (tongue : ScopeId → String) (family : ScopeId → ι)
    (known : List String) : Rule → Prop
  | make {r : Rule} (hcold : ∀ n ∈ r.nodes, n.memo = none) (hakin : r.Akin family) :
      AtHand tongue family known r
  | part {r n : Rule} {way : List Branch} (h : AtHand tongue family known r)
      (hn : r.node? way = some n) : AtHand tongue family known n
  | move {r : Rule} (scope : ScopeId) (h : AtHand tongue family known r) :
      AtHand tongue family known (r.withScope scope)
  | edit {r n n' : Rule} {way : List Branch} (e : Edit) (h : AtHand tongue family known r)
      (hguest : ∀ g, e.guest? = some g → AtHand tongue family known g)
      (hn : r.node? way = some n) (hn' : e.apply n = some n')
      (hakin : (r.setNode n' way).Akin family) : AtHand tongue family known (r.setNode n' way)
  | compile {r n : Rule} {way : List Branch} {s : Session} (force : Bool)
      (h : AtHand tongue family known r) (hn : r.node? way = some n) (hknown : n.texts ⊆ known)
      (hs : s.Sound) (ht : s.tongue = tongue) :
      AtHand tongue family known (r.setNode (n.compile force s).1.2 way)

/-- Compiling a tree comes to the same as compiling one that differs from it in descriptions at
most and in which no checks are kept. -/
def Current (tongue : ScopeId → String) (r : Rule) : Prop :=
  ∀ r' : Rule, r'.bare id = r.bare id → (∀ n ∈ r'.nodes, n.memo = none) →
    ∀ s t : Session, s.Sound → t.Sound → s.tongue = tongue → t.tongue = tongue →
      ∀ force force', Check.Alike Eq (r.compile force s).1.1 (r'.compile force' t).1.1

variable {ι : Type} {tongue : ScopeId → String} {family : ScopeId → ι} {known : List String}

/-! ## Backed checks -/

/-- A kept check was made of a tree in scopes of a locale. -/
structure Backs (tongue : ScopeId → String) (known : List String) (locale : String) (t : Rule)
    (m : Memo) : Prop where
  digest : m.digest = t.digest
  texts : t.texts ⊆ known
  audit : t.audit = .ok ()
  means : Says tongue m.check t
  uniform : t.Uniform tongue locale

def Backed (tongue : ScopeId → String) (known : List String) (locale : String) (m : Memo) : Prop :=
  ∃ t, Backs tongue known locale t m

theorem Backed.congr {locale locale' : String} {m : Memo} (h : Backed tongue known locale m)
    (hlocale : Locale.resolve locale = Locale.resolve locale') : Backed tongue known locale' m := by
  obtain ⟨t, ht⟩ := h
  exact ⟨t, { ht with uniform := fun n hn => (ht.uniform n hn).trans hlocale }⟩

/-- In scopes of one locale, checks of trees with the digest of a node may stand for the node. -/
theorem trusts_backed (hapart : Digest.Apart known) {locale : String} {n : Rule}
    (hknown : n.texts ⊆ known) (huniform : n.Uniform tongue locale) :
    Trusts (Says tongue) (fun _ m => Backed tongue known locale m) n where
  use m hm hdigest := by
    obtain ⟨t, ht⟩ := hm
    -- the tree that the check was made of has the essence of the node, if not its scopes
    have hessence : t.essence = n.essence :=
      essence_of_digest (hapart.mono (List.append_subset.mpr ⟨ht.texts, hknown⟩))
        (ht.digest.symm.trans hdigest)
    refine ⟨(audit_eq_of_bare _ hessence).symm.trans ht.audit, fun now record env => ?_⟩
    rw [← interpret_of_essence hessence ht.uniform huniform (.inr rfl)]
    exact ht.means now record env
  made c haudit hsays := ⟨n, rfl, hknown, haudit, hsays, huniform⟩

/-! ## What every tree at hand is like -/

/-- The check kept in a node, if any, was made of a tree in scopes of the locale of the node. -/
def Sure (tongue : ScopeId → String) (known : List String) (n : Rule) : Prop :=
  ∀ m, n.memo = some m → Backed tongue known (tongue n.scope) m

theorem sure_local (a b : Rule) (hscope : a.scope = b.scope) (hmemo : a.memo = b.memo)
    (h : Sure tongue known a) : Sure tongue known b := by
  rw [Sure, ← hscope, ← hmemo]
  exact h

theorem Akin.uniform {r : Rule} (h : r.Akin family)
    (hsigns : ∀ x y, family x = family y → Locale.resolve (tongue x) = Locale.resolve (tongue y)) :
    r.Uniform tongue (tongue r.scope) :=
  fun n hn => hsigns _ _ (h n hn)

theorem Akin.part {r n : Rule} {way : List Branch} (h : r.Akin family) (hn : r.node? way = some n) :
    n.Akin family := by
  intro x hx
  calc family x.scope
    _ = family r.scope := h x (nodes_subset_node? hn hx)
    _ = family n.scope := (h n (nodes_subset_node? hn (mem_nodes_self n))).symm

theorem akin_of_bare {a b : Rule} (h : a.bare id = b.bare id) (hb : b.Akin family) :
    a.Akin family := by
  have hscopes : ∀ r : Rule, (r.bare id).nodes.map scope = r.nodes.map scope := by
    intro r
    rw [nodes_bare, List.map_map]
    exact List.map_congr_left fun n _ => scope_bare id n
  intro n hn
  have hmem : n.scope ∈ b.nodes.map scope := by
    rw [← hscopes, ← h, hscopes]
    exact List.mem_map_of_mem hn
  obtain ⟨m, hm, hscope⟩ := List.mem_map.mp hmem
  rw [scope_eq_of_bare h, ← hscope]
  exact hb m hm

namespace Edit

variable {n n' x : Rule} {P : Prop}

def Stood (n x : Rule) : Prop :=
  ∃ y ∈ n.nodes, y.scope = x.scope ∧ y.memo = x.memo

theorem stood_or (hx : x ∈ n'.nodes) (hscope : n.scope = n'.scope) (hmemo : n.memo = n'.memo)
    (hbelow : x ∈ nodesBelow n'.test → x ∈ nodesBelow n.test ∨ P)
    (hdepend : x ∈ nodesAll n'.dependencies → x ∈ nodesAll n.dependencies ∨ P) :
    Stood n x ∨ P := by
  have hold : x ∈ nodesBelow n.test ∨ x ∈ nodesAll n.dependencies → Stood n x := by
    intro h
    refine ⟨x, ?_, rfl, rfl⟩
    rw [nodes_eq, List.mem_cons, List.mem_append]
    exact .inr h
  rw [nodes_eq, List.mem_cons, List.mem_append] at hx
  rcases hx with rfl | hx | hx
  · exact .inl ⟨n, mem_nodes_self n, hscope, hmemo⟩
  · exact (hbelow hx).imp_left fun h => hold (.inl h)
  · exact (hdepend hx).imp_left fun h => hold (.inr h)

theorem mem_nodesAll_eraseIdx {rs : List Rule} {i : Nat} (h : x ∈ nodesAll (rs.eraseIdx i)) :
    x ∈ nodesAll rs := by
  obtain ⟨r, hr, hx⟩ := mem_nodesAll.mp h
  exact mem_nodesAll.mpr ⟨r, List.mem_of_mem_eraseIdx hr, hx⟩

theorem mem_nodesAll_concat {rs : List Rule} {r : Rule} (h : x ∈ nodesAll (rs ++ [r])) :
    x ∈ nodesAll rs ∨ x ∈ r.nodes := by
  obtain ⟨c, hc, hx⟩ := mem_nodesAll.mp h
  rcases List.mem_append.mp hc with hc | hc
  · exact .inl (mem_nodesAll.mpr ⟨c, hc, hx⟩)
  · exact .inr (List.mem_singleton.mp hc ▸ hx)

/-- Every node after a change stood there before or came in with the change. -/
theorem stood_or_guest {e : Edit} (h : e.apply n = some n') (hx : x ∈ n'.nodes) :
    Stood n x ∨ ∃ g, e.guest? = some g ∧ x ∈ g.nodes := by
  cases e with
  | operator op =>
    cases h
    exact stood_or hx rfl rfl .inl .inl
  | left o =>
    obtain ⟨test, op, dependencies, locals, description, scope, memo⟩ := n
    cases test with
    | compound cs => cases h
    | _ =>
      cases h
      exact stood_or hx rfl rfl .inl .inl
  | right o =>
    obtain ⟨test, op, dependencies, locals, description, scope, memo⟩ := n
    cases test with
    | compare as l r =>
      cases h
      exact stood_or hx rfl rfl .inl .inl
    | _ => cases h
  | description text =>
    cases h
    exact stood_or hx rfl rfl .inl .inl
  | bind name o =>
    cases h
    exact stood_or hx rfl rfl .inl .inl
  | unbind name =>
    cases h
    exact stood_or hx rfl rfl .inl .inl
  | pushChild c =>
    rw [apply, Rule.pushChild, Option.ite_none_right_eq_some, Option.some.injEq] at h
    obtain ⟨-, rfl⟩ := h
    refine stood_or hx rfl rfl (fun hx => ?_) .inl
    rcases mem_nodesAll_concat (nodesBelow_withChildren hx) with hx | hx
    · exact .inl (nodesBelow_eq n.test ▸ hx)
    · exact .inr ⟨c, rfl, hx⟩
  | removeChild i =>
    rw [apply, Rule.removeChild] at h
    cases hc : n.children[i]? <;> rw [hc] at h <;> cases h
    refine stood_or hx rfl rfl (fun hx => .inl ?_) .inl
    exact nodesBelow_eq n.test ▸ mem_nodesAll_eraseIdx (nodesBelow_withChildren hx)
  | pushDependency d =>
    cases h
    refine stood_or hx rfl rfl .inl fun hx => ?_
    exact (mem_nodesAll_concat hx).imp_right fun hx => ⟨d, rfl, hx⟩
  | removeDependency i =>
    rw [apply, Rule.removeDependency] at h
    cases hd : n.dependencies[i]? <;> rw [hd] at h <;> cases h
    exact stood_or hx rfl rfl .inl fun hx => .inl (mem_nodesAll_eraseIdx hx)
  | become r =>
    exact .inr ⟨n', h, hx⟩

end Edit

/-- What holds of nodes that keep no checks, depends on their scopes and kept checks alone and
outlasts compilations holds of all nodes of every tree at hand. -/
theorem AtHand.akin_and {Q : Rule → Prop} (hcold : ∀ n : Rule, n.memo = none → Q n)
    (hlocal : ∀ a b : Rule, a.scope = b.scope → a.memo = b.memo → Q a → Q b)
    (hcompile : ∀ (n : Rule) (s : Session) (force : Bool), n.Akin family → (∀ x ∈ n.nodes, Q x) →
      n.texts ⊆ known → s.Sound → s.tongue = tongue →
      (n.compile force s).1.2.bare id = n.bare id ∧ ∀ x ∈ (n.compile force s).1.2.nodes, Q x)
    {r : Rule} (h : AtHand tongue family known r) : r.Akin family ∧ ∀ n ∈ r.nodes, Q n := by
  induction h with
  | @make r hmemo hakin => exact ⟨hakin, fun n hn => hcold n (hmemo n hn)⟩
  | @part r n way _ hn ih =>
    exact ⟨ih.1.part hn, fun x hx => ih.2 x (nodes_subset_node? hn hx)⟩
  | @move r scope _ ih =>
    have hmoved := mem_nodes_withScope scope r
    refine ⟨fun n hn => ?_, fun n hn => hcold n (hmoved n hn).2⟩
    rw [(hmoved n hn).1, (hmoved _ (mem_nodes_self _)).1]
  | @edit r n n' way e _ _ hn hn' hakin ih ihguest =>
    -- nodes above the change keep scope and memo
    refine ⟨hakin, forall_nodes_setNode hlocal (fun x hx => ?_) hn ih.2⟩
    rcases Edit.stood_or_guest hn' hx with ⟨y, hy, hscope, hmemo⟩ | ⟨g, hg, hx⟩
    · exact hlocal y x hscope hmemo (ih.2 y (nodes_subset_node? hn hy))
    · exact (ihguest g hg).2 x hx
  | @compile r n way s force _ hn hknown hs ht ih =>
    obtain ⟨hakin, hold⟩ := ih
    obtain ⟨hbare, hnew⟩ := hcompile n s force (hakin.part hn)
      (fun x hx => hold x (nodes_subset_node? hn hx)) hknown hs ht
    exact ⟨akin_of_bare (bare_setNode hbare hn) hakin, forall_nodes_setNode hlocal hnew hn hold⟩

section Sure

variable
  (hsigns : ∀ x y, family x = family y → Locale.resolve (tongue x) = Locale.resolve (tongue y))
  (hapart : Digest.Apart known)

include hsigns hapart

/-- With sure checks in it, a tree in scopes of one family compiles to what it means, and the checks
in it are sure again. -/
theorem compile_sure {n : Rule} (hakin : n.Akin family)
    (hsure : ∀ x ∈ n.nodes, Sure tongue known x) (hknown : n.texts ⊆ known) {s : Session}
    (hs : s.Sound) (ht : s.tongue = tongue) (force : Bool) :
    Work.Settles n.audit (Says tongue · n) (n.compile force s).1.1 ∧
      (n.compile force s).1.2.bare id = n.bare id ∧
      ∀ x ∈ (n.compile force s).1.2.nodes, Sure tongue known x := by
  have huniform := hakin.uniform hsigns
  have htrust : ∀ x ∈ n.nodes,
      Trusts (Says tongue) (fun _ m => Backed tongue known (tongue n.scope) m) x := by
    intro x hx
    refine trusts_backed hapart ?_ fun y hy => huniform y (nodes_subset n hx hy)
    exact List.Subset.trans (List.map_subset _ (nodes_subset n hx)) hknown
  have hkeep : Keeps (fun _ m => Backed tongue known (tongue n.scope) m) n.nodes :=
    fun x hx m hm => (hsure x hx m hm).congr (huniform x hx)
  obtain ⟨-, hres, hbare, hkeep'⟩ := compile_ends force n htrust hkeep s hs ht
  refine ⟨hres, hbare, fun x hx m hm => (hkeep' x hx m hm).congr ?_⟩
  rw [← scope_eq_of_bare hbare]
  exact ((akin_of_bare hbare hakin).uniform hsigns x hx).symm

/-- Every tree at hand is in scopes of one family, and its kept checks are sure. -/
theorem AtHand.akin_sure {r : Rule} (h : AtHand tongue family known r) :
    r.Akin family ∧ ∀ n ∈ r.nodes, Sure tongue known n := by
  refine h.akin_and (fun n hmemo m hm => ?_) sure_local ?_
  · rw [hmemo] at hm
    cases hm
  · intro n s force hakin hsure hknown hs ht
    exact (compile_sure hsigns hapart hakin hsure hknown hs ht force).2

/-- Every tree at hand compiles to what it would compile to without kept checks. -/
theorem AtHand.current {r : Rule} (h : AtHand tongue family known r) (hknown : r.texts ⊆ known) :
    r.Current tongue := by
  intro r' hbare hcold s t hs ht hst htt force force'
  obtain ⟨hakin, hsure⟩ := h.akin_sure hsigns hapart
  obtain ⟨hx, -, -⟩ := compile_sure hsigns hapart hakin hsure hknown hs hst force
  have hy := compile_settles ht (keeps_cold hcold) force'
  rw [htt] at hy
  refine alike_of_settles hx hy (audit_eq_of_bare id hbare.symm) ?_
  rintro now _ rfl
  exact interpret_eq_of_bare tongue now hbare.symm

end Sure

end Verdict.Rule
