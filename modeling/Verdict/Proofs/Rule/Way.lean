import Mathlib.Data.List.Basic
import Verdict.Proofs.Rule.Editing

/-!
# Places in a tree

Which node stands where after one node of a tree has given way to another, and which way leads to a
node after an edit: rules below a node move up when one before them is taken away.
-/

namespace Verdict.Rule

/-! ## One step down -/

def branch? (r : Rule) : Branch → Option Rule
  | .child i => r.children[i]?
  | .dependency i => r.dependencies[i]?

theorem node?_cons (r : Rule) (b : Branch) (way : List Branch) :
    r.node? (b :: way) = (r.branch? b).bind (·.node? way) := by
  cases b <;> rfl

theorem node?_singleton {r c : Rule} {b : Branch} (h : r.branch? b = some c) :
    r.node? [b] = some c := by
  rw [node?_cons, h]
  rfl

theorem node?_append (r : Rule) (way w : List Branch) :
    r.node? (way ++ w) = (r.node? way).bind (·.node? w) := by
  induction way generalizing r with
  | nil => rfl
  | cons b way ih =>
    rw [List.cons_append, node?_cons, node?_cons]
    cases r.branch? b with
    | none => rfl
    | some c => exact ih c

theorem node?_cons_eq_some {r n : Rule} {b : Branch} {way : List Branch}
    (h : r.node? (b :: way) = some n) : ∃ c, r.branch? b = some c ∧ c.node? way = some n := by
  rwa [node?_cons, Option.bind_eq_some_iff] at h

theorem node?_append_eq_some {r n : Rule} {way w : List Branch}
    (h : r.node? (way ++ w) = some n) : ∃ p, r.node? way = some p ∧ p.node? w = some n := by
  rwa [node?_append, Option.bind_eq_some_iff] at h

theorem exists_node?_onWay {r n : Rule} {q way : List Branch} (h : r.node? way = some n)
    (hq : q <+: way) : ∃ m, r.node? q = some m := by
  obtain ⟨rest, rfl⟩ := hq
  obtain ⟨m, hm, -⟩ := node?_append_eq_some h
  exact ⟨m, hm⟩

theorem node?_mem_nodes {r n : Rule} {way : List Branch} (h : r.node? way = some n) :
    n ∈ r.nodes :=
  nodes_subset_node? h (mem_nodes_self n)

mutual
theorem exists_node?_of_mem {n : Rule} : (r : Rule) → n ∈ r.nodes → ∃ way, r.node? way = some n
  | ⟨test, op, dependencies, locals, description, scope, memo⟩, h => by
    rw [nodes, List.mem_cons, List.mem_append] at h
    rcases h with rfl | h | h
    · exact ⟨[], rfl⟩
    · obtain ⟨i, c, way, hc, hn⟩ := exists_node?_of_mem_below test h
      exact ⟨.child i :: way, by rw [node?_cons, branch?, children, hc, Option.bind_some, hn]⟩
    · obtain ⟨i, d, way, hd, hn⟩ := exists_node?_of_mem_all dependencies h
      exact ⟨.dependency i :: way, by rw [node?_cons, branch?, hd, Option.bind_some, hn]⟩

theorem exists_node?_of_mem_below {n : Rule} : (test : Test Rule) → n ∈ nodesBelow test →
    ∃ (i : Nat) (c : Rule) (way : List Branch), test.children[i]? = some c ∧ c.node? way = some n
  | .compound cs, h => exists_node?_of_mem_all cs h
  | .iterate _ cs, h => exists_node?_of_mem_all cs h
  | .compare .., h => nomatch h
  | .presence _, h => nomatch h

theorem exists_node?_of_mem_all {n : Rule} : (rs : List Rule) → n ∈ nodesAll rs →
    ∃ (i : Nat) (c : Rule) (way : List Branch), rs[i]? = some c ∧ c.node? way = some n
  | [], h => nomatch h
  | r :: rest, h => by
    rw [nodesAll, List.mem_append] at h
    rcases h with h | h
    · obtain ⟨way, hn⟩ := exists_node?_of_mem r h
      exact ⟨0, r, way, rfl, hn⟩
    · obtain ⟨i, c, way, hc, hn⟩ := exists_node?_of_mem_all rest h
      exact ⟨i + 1, c, way, hc, hn⟩
end

theorem children_withChildren {ρ : Type} {test : Test ρ} (h : test.isGroup = true) (cs : List ρ) :
    (test.withChildren cs).children = cs := by
  cases test with
  | compound _ | iterate _ _ => rfl
  | compare _ _ _ | presence _ => cases h

theorem isGroup_of_getElem? {ρ : Type} {test : Test ρ} {c : ρ} {i : Nat}
    (h : test.children[i]? = some c) : test.isGroup = true := by
  cases test with
  | compound _ | iterate _ _ => rfl
  | compare _ _ _ | presence _ => cases h

theorem getElem?_modify_eq {ρ : Type} {rs : List ρ} {i : Nat} {c : ρ} (h : rs[i]? = some c)
    (f : ρ → ρ) (j : Nat) : (rs.modify i f)[j]? = if j = i then some (f c) else rs[j]? := by
  by_cases hij : j = i
  · subst hij
    rw [if_pos rfl, List.getElem?_modify_eq, h]
    rfl
  · rw [if_neg hij, List.getElem?_modify_ne f rs (Ne.symm hij)]

theorem branch?_setNode {r c : Rule} {b : Branch} (hb : r.branch? b = some c) (n : Rule)
    (way : List Branch) (b' : Branch) :
    (r.setNode n (b :: way)).branch? b' =
      if b' = b then some (c.setNode n way) else r.branch? b' := by
  cases b with
  | child i =>
    have hchildren : (r.setNode n (.child i :: way)).children =
        r.children.modify i (·.setNode n way) :=
      children_withChildren (isGroup_of_getElem? hb) _
    cases b' with
    | child j =>
      rw [branch?, hchildren, getElem?_modify_eq hb, branch?]
      simp only [Branch.child.injEq]
    | dependency j => rw [if_neg nofun]; rfl
  | dependency i =>
    cases b' with
    | child j => rw [if_neg nofun]; rfl
    | dependency j =>
      rw [branch?, branch?, setNode, getElem?_modify_eq hb]
      simp only [Branch.dependency.injEq]

/-! ## Another node in a place -/

section SetNode

variable {r p n : Rule} {way : List Branch}

/-- In the place of the node and below it stands the other node. -/
theorem node?_setNode_append (h : r.node? way = some p) (x : Rule) (w : List Branch) :
    (r.setNode x way).node? (way ++ w) = x.node? w := by
  induction way generalizing r with
  | nil => rfl
  | cons b way ih =>
    obtain ⟨c, hc, hp⟩ := node?_cons_eq_some h
    rw [List.cons_append, node?_cons, branch?_setNode hc, if_pos rfl]
    exact ih hp

theorem node?_setNode_self (h : r.node? way = some p) (x : Rule) :
    (r.setNode x way).node? way = some x := by
  have hx := node?_setNode_append h x []
  rwa [List.append_nil] at hx

theorem node?_setNode_above {q rest : List Branch} (h : r.node? (q ++ rest) = some p)
    (hn : r.node? q = some n) (x : Rule) :
    (r.setNode x (q ++ rest)).node? q = some (n.setNode x rest) := by
  induction q generalizing r with
  | nil =>
    cases hn
    rfl
  | cons b q ih =>
    obtain ⟨c, hc, hp⟩ := node?_cons_eq_some h
    obtain ⟨c', hc', hn⟩ := node?_cons_eq_some hn
    cases hc.symm.trans hc'
    rw [List.cons_append, node?_cons, branch?_setNode hc, if_pos rfl]
    exact ih hp hn

theorem node?_setNode_aside {q : List Branch} (h : r.node? way = some p) (hq : ¬ q <+: way)
    (hway : ¬ way <+: q) (x : Rule) : (r.setNode x way).node? q = r.node? q := by
  induction way generalizing r q with
  | nil => exact absurd List.nil_prefix hway
  | cons b way ih =>
    cases q with
    | nil => exact absurd List.nil_prefix hq
    | cons b' q =>
      obtain ⟨c, hc, hp⟩ := node?_cons_eq_some h
      rw [node?_cons, node?_cons, branch?_setNode hc]
      split
      · rename_i hb
        subst hb
        rw [hc]
        exact ih hp (fun hq' => hq (List.cons_prefix_cons.mpr ⟨rfl, hq'⟩))
          (fun hway' => hway (List.cons_prefix_cons.mpr ⟨rfl, hway'⟩))
      · rfl

theorem memo_setNode_cons (r x : Rule) (b : Branch) (way : List Branch) :
    (r.setNode x (b :: way)).memo = r.memo := by
  cases b <;> rfl

/-- The nodes on the way to a node that gives way to another one keep their checks, and so does the
node in its place if the other one has its check. -/
theorem node?_setNode_onWay {x : Rule} {q : List Branch} (hp : r.node? way = some p)
    (hq : q <+: way) (hmemo : q = way → x.memo = p.memo) (hn : r.node? q = some n) :
    ∃ rest, n.node? rest = some p ∧ (r.setNode x way).node? q = some (n.setNode x rest) ∧
      (n.setNode x rest).memo = n.memo := by
  obtain ⟨rest, rfl⟩ := hq
  have hrest := hp
  rw [node?_append, hn, Option.bind_some] at hrest
  refine ⟨rest, hrest, node?_setNode_above hp hn x, ?_⟩
  cases rest with
  | nil =>
    cases hrest
    exact hmemo (List.append_nil q).symm
  | cons b rest => exact memo_setNode_cons n x b rest

end SetNode

/-! ## Ways after an edit -/

theorem dropPrefix?_append (way w : List Branch) : (way ++ w).dropPrefix? way = some w :=
  List.dropPrefix?_append_of_beq w (beq_self_eq_true way)

theorem eq_append_of_dropPrefix? {way q w : List Branch} (h : q.dropPrefix? way = some w) :
    q = way ++ w := by
  obtain ⟨l, rfl, hl⟩ := List.dropPrefix?_eq_some_iff.mp h
  rw [eq_of_beq hl]

theorem dropPrefix?_aside {way q : List Branch} (h : ¬ way <+: q) :
    q.dropPrefix? way = none :=
  Option.eq_none_iff_forall_ne_some.mpr fun w hw =>
    h ⟨w, (eq_append_of_dropPrefix? hw).symm⟩

/-- The place of an entry of a list after another entry is taken away. -/
def closeGap (i j : Nat) : Option Nat :=
  if j = i then none else some (if j < i then j else j - 1)

theorem getElem?_eraseIdx_closeGap {α : Type} (xs : List α) {i j k : Nat}
    (h : closeGap i j = some k) : (xs.eraseIdx i)[k]? = xs[j]? := by
  rw [closeGap, Option.ite_none_left_eq_some, Option.some.injEq] at h
  obtain ⟨hne, rfl⟩ := h
  rw [List.getElem?_eraseIdx]
  by_cases hj : j < i
  · rw [if_pos hj, if_pos hj]
  · rw [if_neg hj, if_neg (by omega), Nat.sub_add_cancel (by omega)]

namespace Edit

def onChildren : Edit → List Rule → List Rule
  | pushChild c, cs => cs ++ [c]
  | removeChild i, cs => cs.eraseIdx i
  | _, cs => cs

def onDependencies : Edit → List Rule → List Rule
  | pushDependency d, ds => ds ++ [d]
  | removeDependency i, ds => ds.eraseIdx i
  | _, ds => ds

/-- The way, from an edited node, to a rule that was below it or is the node itself. -/
def follow : Edit → List Branch → Option (List Branch)
  | become _, _ => none
  | removeChild i, .child j :: w => (closeGap i j).map (.child · :: w)
  | removeDependency i, .dependency j :: w => (closeGap i j).map (.dependency · :: w)
  | _, w => some w

/-- The place, below an edited node, of the tree that comes in. -/
def port (p : Rule) : Edit → List Branch
  | pushChild _ => [.child p.children.length]
  | pushDependency _ => [.dependency p.dependencies.length]
  | _ => []

/-- A node is still itself after an edit: it has kept its check, and its rules but for one that came
or went. -/
structure Stays (e : Edit) (p p' : Rule) : Prop where
  stands : ∀ r, e ≠ become r
  memo : p'.memo = p.memo
  children : p'.children = e.onChildren p.children
  dependencies : p'.dependencies = e.onDependencies p.dependencies

variable {e : Edit} {p p' c g : Rule} {b : Branch} {w w' : List Branch}

theorem stays_or_become (h : e.apply p = some p') : e = become p' ∨ e.Stays p p' := by
  cases e with
  | become r =>
    cases h
    exact .inl rfl
  | left o =>
    obtain ⟨test, op, dependencies, locals, description, scope, memo⟩ := p
    cases test with
    | compound cs => cases h
    | _ =>
      cases h
      exact .inr ⟨fun _ => Edit.noConfusion, rfl, rfl, rfl⟩
  | right o =>
    obtain ⟨test, op, dependencies, locals, description, scope, memo⟩ := p
    cases test with
    | compare as l r =>
      cases h
      exact .inr ⟨fun _ => Edit.noConfusion, rfl, rfl, rfl⟩
    | _ => cases h
  | pushChild c =>
    rw [apply, Rule.pushChild, Option.ite_none_right_eq_some, Option.some.injEq] at h
    obtain ⟨hgroup, rfl⟩ := h
    exact .inr ⟨fun _ => Edit.noConfusion, rfl, children_withChildren hgroup _, rfl⟩
  | removeChild i =>
    obtain ⟨⟨c, q⟩, hq, rfl⟩ := Option.map_eq_some_iff.mp h
    rw [Rule.removeChild] at hq
    split at hq <;> cases hq
    rename_i hc
    exact .inr ⟨fun _ => Edit.noConfusion, rfl,
      children_withChildren (isGroup_of_getElem? hc) _, rfl⟩
  | removeDependency i =>
    obtain ⟨⟨c, q⟩, hq, rfl⟩ := Option.map_eq_some_iff.mp h
    rw [Rule.removeDependency] at hq
    split at hq <;> cases hq
    exact .inr ⟨fun _ => Edit.noConfusion, rfl, rfl, rfl⟩
  | _ =>
    cases h
    exact .inr ⟨fun _ => Edit.noConfusion, rfl, rfl, rfl⟩

theorem follow_nil (h : ∀ r, e ≠ become r) : e.follow [] = some [] := by
  cases e with
  | become r => exact absurd rfl (h r)
  | _ => rfl

theorem stays_of_follow (h : e.apply p = some p') (hf : e.follow w = some w') : e.Stays p p' := by
  rcases stays_or_become h with rfl | h
  · cases hf
  · exact h

/-- The rules below an edited node are the same, each at its new branch. -/
theorem branch?_apply (h : e.apply p = some p') (hb : p.branch? b = some c)
    (hf : e.follow (b :: w) = some w') : ∃ b', w' = b' :: w ∧ p'.branch? b' = some c := by
  obtain ⟨-, -, hchildren, hdependencies⟩ := stays_of_follow h hf
  have hpush : ∀ {rs : List Rule} {i} (g : Rule), rs[i]? = some c → (rs ++ [g])[i]? = some c :=
    fun g hc => (List.getElem?_append_left (List.getElem?_eq_some_iff.mp hc).1).trans hc
  cases b with
  | child j =>
    cases e with
    | removeChild i =>
      obtain ⟨k, hk, rfl⟩ := Option.map_eq_some_iff.mp hf
      refine ⟨.child k, rfl, ?_⟩
      rw [branch?, hchildren]
      exact (getElem?_eraseIdx_closeGap _ hk).trans hb
    | become r => cases hf
    | _ =>
      cases hf
      refine ⟨.child j, rfl, ?_⟩
      rw [branch?, hchildren]
      first | exact hb | exact hpush _ hb
  | dependency j =>
    cases e with
    | removeDependency i =>
      obtain ⟨k, hk, rfl⟩ := Option.map_eq_some_iff.mp hf
      refine ⟨.dependency k, rfl, ?_⟩
      rw [branch?, hdependencies]
      exact (getElem?_eraseIdx_closeGap _ hk).trans hb
    | become r => cases hf
    | _ =>
      cases hf
      refine ⟨.dependency j, rfl, ?_⟩
      rw [branch?, hdependencies]
      first | exact hb | exact hpush _ hb

theorem node?_port (h : e.apply p = some p') (hg : e.guest? = some g) (w : List Branch) :
    p'.node? (e.port p ++ w) = g.node? w := by
  have hend : ∀ rs : List Rule, (rs ++ [g])[rs.length]? = some g := fun rs =>
    List.getElem?_concat_length
  rcases stays_or_become h with rfl | ⟨hstands, -, hchildren, hdependencies⟩
  · cases hg
    rfl
  · cases e with
    | pushChild c =>
      cases hg
      rw [port, List.singleton_append, node?_cons, branch?, hchildren, onChildren, hend]
      rfl
    | pushDependency d =>
      cases hg
      rw [port, List.singleton_append, node?_cons, branch?, hdependencies, onDependencies, hend]
      rfl
    | become r => exact absurd rfl (hstands r)
    | _ => cases hg

/-- The way to a node of the tree after an edit of the node that a way leads to; nothing if the
node has left the tree. -/
def followFrom (e : Edit) (way q : List Branch) : Option (List Branch) :=
  match q.dropPrefix? way with
  | some w => (e.follow w).map (way ++ ·)
  | none => some q

theorem followFrom_append (e : Edit) (way w : List Branch) :
    e.followFrom way (way ++ w) = (e.follow w).map (way ++ ·) := by
  rw [followFrom, dropPrefix?_append]

theorem followFrom_aside (e : Edit) {way q : List Branch} (h : ¬ way <+: q) :
    e.followFrom way q = some q := by
  rw [followFrom, dropPrefix?_aside h]

/-- Every node that is still in the tree after an edit has kept its check. -/
theorem node?_followFrom {r n : Rule} {way q q' : List Branch} (hp : r.node? way = some p)
    (h : e.apply p = some p') (hn : r.node? q = some n) (hf : e.followFrom way q = some q') :
    ∃ n', (r.setNode p' way).node? q' = some n' ∧ n'.memo = n.memo := by
  by_cases hway : way <+: q
  · obtain ⟨w, rfl⟩ := hway
    rw [followFrom_append, Option.map_eq_some_iff] at hf
    obtain ⟨w', hf, rfl⟩ := hf
    have hstays := stays_of_follow h hf
    rw [node?_append, hp, Option.bind_some] at hn
    cases w with
    | nil =>
      cases hn
      cases (follow_nil hstays.stands).symm.trans hf
      rw [List.append_nil]
      exact ⟨p', node?_setNode_self hp p', hstays.memo⟩
    | cons b w =>
      obtain ⟨c, hc, hn⟩ := node?_cons_eq_some hn
      obtain ⟨b', rfl, hb'⟩ := branch?_apply h hc hf
      exact ⟨n, by rw [node?_setNode_append hp, node?_cons, hb', Option.bind_some, hn], rfl⟩
  · rw [followFrom_aside e hway] at hf
    cases hf
    by_cases hq : q <+: way
    · obtain ⟨rest, -, hn', hmemo⟩ := node?_setNode_onWay hp hq
        (fun h => absurd (h ▸ List.prefix_refl q) hway) hn
      exact ⟨_, hn', hmemo⟩
    · exact ⟨n, (node?_setNode_aside hp hq hway p').trans hn, rfl⟩

end Edit

end Verdict.Rule
