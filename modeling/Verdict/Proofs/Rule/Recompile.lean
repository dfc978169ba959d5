import Verdict.Proofs.Rule.Visit

/-!
# Compiling again after an edit

When all nodes of a tree are up to date and one of them is edited, compiling the root makes new
checks for the nodes on the way to the edited node and, as far as they need it, for rules that have
come in there.  All other nodes go on with the checks that they had.
-/

namespace Verdict.Rule

/-! ## Digests along a way -/

section Digests

variable {r p p' : Rule} {way : List Branch}

theorem digestAll_eq_map (rs : List Rule) : digestAll rs = rs.map fun r => Json.str r.digest := by
  induction rs with
  | nil => rfl
  | cons r rest ih => rw [digestAll, ih, List.map_cons]

theorem digestAll_modify {r : Rule} {rs : List Rule} {i : Nat} {f : Rule → Rule}
    (hr : rs[i]? = some r) (hf : (f r).digest = r.digest) :
    digestAll (rs.modify i f) = digestAll rs := by
  rw [digestAll_eq_map, digestAll_eq_map]
  apply List.ext_getElem?
  intro j
  rw [List.getElem?_map, List.getElem?_map, getElem?_modify_eq hr]
  split
  · rename_i hij
    rw [hij, hr, Option.map_some, Option.map_some, hf]
  · rfl

/-- Other rules below a node that have the same digests do not change its digest. -/
theorem digest_withChildren (r : Rule) {cs : List Rule}
    (h : digestAll cs = digestAll r.children) :
    digest { r with test := r.test.withChildren cs } = r.digest := by
  obtain ⟨test, op, dependencies, locals, description, scope, memo⟩ := r
  cases test with
  | compound _ | iterate _ _ =>
    rw [digest_eq, digest_eq]
    exact congrArg (fun js => Digest.sha256 (Json.text (.obj (("conditions", .arr js) :: _)))) h
  | compare _ _ _ | presence _ => rfl

/-- A node that gives way to one with the same digest changes no digest above it. -/
theorem digest_setNode (hdigest : p'.digest = p.digest) :
    r.node? way = some p → (r.setNode p' way).digest = r.digest := by
  induction way generalizing r with
  | nil =>
    intro h
    cases h
    exact hdigest
  | cons b way ih =>
    intro h
    obtain ⟨c, hc, hp⟩ := node?_cons_eq_some h
    have hall : ∀ {rs : List Rule} {i}, rs[i]? = some c →
        digestAll (rs.modify i (·.setNode p' way)) = digestAll rs :=
      fun hc => digestAll_modify hc (ih hp)
    cases b with
    | child i => exact digest_withChildren r (hall hc)
    | dependency i =>
      have hall := hall hc
      rw [digest_eq, digest_eq]
      exact congrArg
        (fun js => Digest.sha256 (Json.text (.obj (_ :: ("dependencies", .arr js) :: _)))) hall

theorem branch?_bare (move : ScopeId → ScopeId) (r : Rule) (b : Branch) :
    (r.bare move).branch? b = (r.branch? b).map (bare move) := by
  obtain ⟨test, op, dependencies, locals, description, scope, memo⟩ := r
  have hall : ∀ (rs : List Rule) (i : Nat), (bareAll move rs)[i]? = rs[i]?.map (bare move) := by
    intro rs i
    rw [bareAll_eq_map, List.getElem?_map]
  cases b with
  | child i =>
    cases test with
    | compound cs | iterate _ cs => exact hall cs i
    | compare _ _ _ | presence _ => rfl
  | dependency i => exact hall dependencies i

theorem node?_bare (move : ScopeId → ScopeId) (r : Rule) (way : List Branch) :
    (r.bare move).node? way = (r.node? way).map (bare move) := by
  induction way generalizing r with
  | nil => rfl
  | cons b way ih =>
    rw [node?_cons, node?_cons, branch?_bare]
    cases r.branch? b with
    | none => rfl
    | some c => exact ih c

theorem texts_subset_node? {n : Rule} (h : r.node? way = some n) : n.texts ⊆ r.texts :=
  List.map_subset _ (nodes_subset_node? h)

/-- Where no texts collide, trees with one digest have one digest everywhere. -/
theorem digest_node?_eq {a b n m : Rule} (hapart : Digest.Apart (a.texts ++ b.texts))
    (h : a.digest = b.digest) (hn : a.node? way = some n) (hm : b.node? way = some m) :
    n.digest = m.digest := by
  have hessence := congrArg (node? · way) (essence_of_digest hapart h)
  simp only [essence, node?_bare, hn, hm, Option.map_some, Option.some.injEq] at hessence
  exact digest_eq_of_bare hessence

/-- Where no texts collide, a node that gives way to one with another digest changes the digests of
all nodes above it. -/
theorem digest_setNode_ne (hapart : Digest.Apart (r.texts ++ (r.setNode p' way).texts))
    (hp : r.node? way = some p) (hdigest : p'.digest ≠ p.digest) :
    (r.setNode p' way).digest ≠ r.digest :=
  fun h => hdigest (digest_node?_eq hapart h.symm hp (node?_setNode_self hp p')).symm

end Digests

/-! ## What compiling a tree renews -/

/-- The node at a place has a check that was made after all those of an earlier session. -/
def RenewedAt (s : Session) (r : Rule) (way : List Branch) : Prop :=
  ∃ n c, r.node? way = some n ∧ n.memo = some ⟨n.digest, c⟩ ∧ s.fresh ≤ c.id

/-- Compiling the node at a place finds a check that it has kept. -/
def KeepsAt (c : Check) (r : Rule) (way : List Branch) : Prop :=
  ∃ n, r.node? way = some n ∧ ∀ s, n.compile false s = ((.ok c, n), s)

section Renewal

variable {r n : Rule} {s : Session} {c : Check} {way w : List Branch}

theorem digest_compile (force : Bool) (r : Rule) (s : Session) :
    (r.compile force s).1.2.digest = r.digest := by
  rw [← digest_withScope ⟨0⟩ (r.compile force s).1.2, withScope_compile, digest_withScope]

theorem node?_compile_of_upToDate (hn : r.node? way = some n) (hup : n.UpToDate) (s : Session)
    (w : List Branch) :
    (r.compile false s).1.2.node? (way ++ w) = r.node? (way ++ w) := by
  obtain ⟨c, hc⟩ := hup
  have hsame : ∀ o, n.visited false o = n := by
    intro o
    cases o with
    | none => rfl
    | some t => rw [visited, compile_kept hc]
  rw [node?_append, node?_append, node?_compile, hn, Bool.false_and]
  exact congrArg (·.node? w) (hsame _)

/-- Compiling without a fault comes to all nodes that no node above hides. -/
theorem visit_of_ok (hok : (r.compile false s).1.1 = .ok c) (hn : r.node? way = some n)
    (hstale : ∀ q m, q <+: way → q ≠ way → r.node? q = some m → ¬m.UpToDate) :
    ∃ t d, r.visit false s way = some t ∧ (n.compile false t).1.1 = .ok d := by
  induction way generalizing r s c with
  | nil =>
    cases hn
    exact ⟨s, c, rfl, hok⟩
  | cons b way ih =>
    obtain ⟨child, hchild, hn⟩ := node?_cons_eq_some hn
    have hbuilds : r.Builds false := .inr (hstale [] r List.nil_prefix nofun rfl)
    have hcompiles := compiles false r s
    rw [hok] at hcompiles
    obtain ⟨t, d, ht, hd⟩ := hcompiles.turnBelow_of_ok hbuilds hchild
    obtain ⟨u, d', hu, hd'⟩ := ih hd hn fun q m hq hne hm => by
      refine hstale (b :: q) m (List.cons_prefix_cons.mpr ⟨rfl, hq⟩) (by simpa using hne) ?_
      rw [node?_cons, hchild]
      exact hm
    refine ⟨u, d', ?_, hd'⟩
    rw [visit, ht, hchild]
    exact hu

/-- Compiling without a fault renews a node if no node on the way to it is up to date. -/
theorem renewedAt_compile (hok : (r.compile false s).1.1 = .ok c) (hn : r.node? way = some n)
    (hstale : ∀ q m, q <+: way → r.node? q = some m → ¬m.UpToDate) :
    RenewedAt s (r.compile false s).1.2 way := by
  obtain ⟨t, d, ht, hd⟩ := visit_of_ok hok hn fun q m hq _ hm => hstale q m hq hm
  have hbefore := (before_visit ht hn).1.fresh
  have hnode : (r.compile false s).1.2.node? way = some (n.compile false t).1.2 := by
    rw [node?_compile, hn, ht, Bool.false_and]
    rfl
  refine ⟨_, d, hnode, ?_, ?_⟩
  · rw [digest_compile]
    exact memo_compile hd
  · have hcompiles := compiles false n t
    rw [hd] at hcompiles
    rcases hcompiles.check with ⟨-, hmemo⟩ | ⟨-, hid, -⟩
    · exact absurd ⟨d, hmemo⟩ (hstale way n (List.prefix_refl way) hn)
    · exact Nat.le_trans hbefore hid

theorem KeepsAt.upToDate (h : KeepsAt c r way) : ∃ n, r.node? way = some n ∧ n.UpToDate := by
  obtain ⟨n, hn, hfound⟩ := h
  have hmemo := memo_compile (congrArg (·.1.1) (hfound {}))
  rw [hfound] at hmemo
  exact ⟨n, hn, c, hmemo⟩

theorem keepsAt_of_node? (hn : r.node? way = some n) (hmemo : n.memo = some ⟨n.digest, c⟩) :
    KeepsAt c r way :=
  ⟨n, hn, compile_kept hmemo⟩

/-- Compiling the root leaves a node alone that has kept its check. -/
theorem KeepsAt.compile {d : Check} (h : KeepsAt d r way) (s : Session) :
    KeepsAt d (r.compile false s).1.2 way := by
  obtain ⟨n, hn, hup⟩ := h.upToDate
  have hsame := node?_compile_of_upToDate hn hup s []
  rw [List.append_nil] at hsame
  rw [KeepsAt, hsame]
  exact h

end Renewal

/-! ## After an edit -/

section Edited

variable {r p p' : Rule} {way : List Branch}

theorem stale_onWay (hkept : ∀ n ∈ r.nodes, n.UpToDate) (hp : r.node? way = some p)
    (hmemo : p'.memo = p.memo) (hdigest : p'.digest ≠ p.digest)
    (hapart : Digest.Apart (r.texts ++ (r.setNode p' way).texts)) {q : List Branch} {m : Rule}
    (hq : q <+: way) (hm : (r.setNode p' way).node? q = some m) : ¬m.UpToDate := by
  obtain ⟨n, hn⟩ := exists_node?_onWay hp hq
  obtain ⟨rest, hrest, hplace, hsame⟩ := node?_setNode_onWay hp hq (fun _ => hmemo) hn
  cases hm.symm.trans hplace
  have hne : (n.setNode p' rest).digest ≠ n.digest := by
    refine digest_setNode_ne (hapart.mono (List.append_subset.mpr ⟨?_, ?_⟩)) hrest hdigest
    · exact List.Subset.trans (texts_subset_node? hn) (List.subset_append_left _ _)
    · exact List.Subset.trans (texts_subset_node? hm) (List.subset_append_right _ _)
  rintro ⟨c, hc⟩
  obtain ⟨d, hd⟩ := hkept n (node?_mem_nodes hn)
  rw [hsame, hd, Option.some.injEq, Memo.mk.injEq] at hc
  exact hne hc.1.symm

/-- The nodes beside the way to an edited node, and the rules that are still below it, come to the
checks that they had. -/
def OthersKeep (r p p' : Rule) (way : List Branch) (after : Rule) : Prop :=
  (∀ q n d, ¬q <+: way → ¬way <+: q → r.node? q = some n → n.memo = some ⟨n.digest, d⟩ →
    KeepsAt d after q) ∧
  ∀ b b' g w n d, p.branch? b = some g → p'.branch? b' = some g → g.node? w = some n →
    n.memo = some ⟨n.digest, d⟩ → KeepsAt d after (way ++ b' :: w)

theorem othersKeep_setNode (hp : r.node? way = some p) :
    OthersKeep r p p' way (r.setNode p' way) := by
  refine ⟨fun q n d hq hway hn hmemo => keepsAt_of_node? ?_ hmemo,
    fun b b' g w n d hb hb' hn hmemo => keepsAt_of_node? ?_ hmemo⟩
  · rw [node?_setNode_aside hp hq hway, hn]
  · rw [node?_setNode_append hp, node?_cons, hb', Option.bind_some, hn]

theorem OthersKeep.compile {after : Rule} (h : OthersKeep r p p' way after) (s : Session) :
    OthersKeep r p p' way (after.compile false s).1.2 :=
  ⟨fun q n d hq hway hn hmemo => (h.1 q n d hq hway hn hmemo).compile s,
    fun b b' g w n d hb hb' hn hmemo => (h.2 b b' g w n d hb hb' hn hmemo).compile s⟩

/-- The nodes of a rule below an edited node are renewed down to the first ones that are up to
date, and no further. -/
def RenewedDown (s : Session) (g after : Rule) (way : List Branch) : Prop :=
  ∀ w x, g.node? w = some x →
    ((∀ v y, v <+: w → g.node? v = some y → ¬y.UpToDate) → RenewedAt s after (way ++ w)) ∧
    ∀ v y, v <+: w → g.node? v = some y → y.UpToDate → after.node? (way ++ w) = some x

theorem renewedDown_compile {r g : Rule} {s : Session} {c : Check} {way : List Branch}
    (hok : (r.compile false s).1.1 = .ok c) (hg : r.node? way = some g)
    (hstale : ∀ q m, q <+: way → q ≠ way → r.node? q = some m → ¬m.UpToDate) :
    RenewedDown s g (r.compile false s).1.2 way := by
  intro w x hx
  have hplace : r.node? (way ++ w) = some x := by rw [node?_append, hg, Option.bind_some, hx]
  refine ⟨fun hbelow => renewedAt_compile hok hplace fun q m hq hm => ?_, ?_⟩
  · by_cases hway : way <+: q
    · obtain ⟨v, rfl⟩ := hway
      rw [node?_append, hg, Option.bind_some] at hm
      exact hbelow v m ((List.prefix_append_right_inj way).mp hq) hm
    · have hq := (List.prefix_or_prefix_of_prefix hq (List.prefix_append way w)).resolve_right hway
      exact hstale q m hq (fun h => hway (h ▸ List.prefix_refl way)) hm
  · rintro v y ⟨u, rfl⟩ hy hup
    have hy' : r.node? (way ++ v) = some y := by rw [node?_append, hg, Option.bind_some, hy]
    rw [← List.append_assoc, node?_compile_of_upToDate hy' hup, List.append_assoc, hplace]

/-- A tree whose nodes are all up to date is compiled again after a node has been edited, which
leaves the check alone that the node has kept.  If the digest of the node has changed and no texts
collide, compiling without a fault renews the nodes on the way and, as far as they are out of date,
those of the rules below; all others keep their checks.  If the digest is the same, all do. -/
theorem renews_way_only (hkept : ∀ n ∈ r.nodes, n.UpToDate) (hp : r.node? way = some p)
    (hmemo : p'.memo = p.memo) :
    let r' := r.setNode p' way
    (p'.digest ≠ p.digest → Digest.Apart (r.texts ++ r'.texts) →
      ∀ s c, (r'.compile false s).1.1 = .ok c →
        let after := (r'.compile false s).1.2
        (∀ q, q <+: way → RenewedAt s after q) ∧ OthersKeep r p p' way after ∧
          ∀ b g, p'.branch? b = some g → RenewedDown s g after (way ++ [b])) ∧
    (p'.digest = p.digest →
      (∀ s, (r'.compile false s).1.2 = r') ∧ OthersKeep r p p' way r' ∧
      ∀ q n d, q <+: way → r.node? q = some n → n.memo = some ⟨n.digest, d⟩ → KeepsAt d r' q) := by
  intro r'
  have hothers : OthersKeep r p p' way r' := othersKeep_setNode hp
  constructor
  · intro hdigest hapart s c hok
    have hstale : ∀ q m, q <+: way → r'.node? q = some m → ¬m.UpToDate :=
      fun q m => stale_onWay hkept hp hmemo hdigest hapart
    refine ⟨fun q hq => ?_, hothers.compile s, fun b g hg => ?_⟩
    · obtain ⟨n, hn⟩ := exists_node?_onWay hp hq
      obtain ⟨rest, -, hplace, -⟩ := node?_setNode_onWay hp hq (fun _ => hmemo) hn
      exact renewedAt_compile hok hplace fun q' m hq' => hstale q' m (hq'.trans hq)
    · have hplace : r'.node? (way ++ [b]) = some g := by
        rw [node?_setNode_append hp, node?_cons, hg]
        rfl
      refine renewedDown_compile hok hplace fun q m hq hne hm => hstale q m ?_ hm
      exact (List.prefix_concat_iff.mp hq).resolve_left hne
  · intro hdigest
    have hway : ∀ q n d, q <+: way → r.node? q = some n → n.memo = some ⟨n.digest, d⟩ →
        KeepsAt d r' q := by
      intro q n d hq hn hd
      obtain ⟨rest, hrest, hplace, hsame⟩ := node?_setNode_onWay hp hq (fun _ => hmemo) hn
      refine keepsAt_of_node? hplace ?_
      rw [hsame, hd, digest_setNode hdigest hrest]
    refine ⟨fun s => ?_, hothers, hway⟩
    obtain ⟨d, hd⟩ := hkept r (mem_nodes_self r)
    obtain ⟨n, hn, hfound⟩ := hway [] r d List.nil_prefix rfl hd
    cases hn
    rw [hfound]

end Edited

/-! ## A rule that is edited below a group -/

/-- What a node that is out of date has kept counts for nothing. -/
theorem faithful_of_stale {tongue : ScopeId → String} {n : Rule} (h : ¬n.UpToDate) {m : Memo}
    (hm : n.memo = some m) : Faithful tongue (n.bare id) m := by
  intro hdigest
  rw [digest_bare] at hdigest
  exact absurd ⟨m.check, by rw [hm, ← hdigest]⟩ h

def blank (op : Operator) : Rule :=
  of ⟨0⟩ (.presence none) op

def grouped (r : Rule) : Rule :=
  of ⟨0⟩ (.compound [r]) .all

def keeping (id : Nat) (r : Rule) : Rule :=
  { r with memo := some ⟨r.digest, ⟨id, r.kind, r.operator, [], [], .pass⟩⟩ }

theorem digest_keeping (id : Nat) (r : Rule) : (keeping id r).digest = r.digest := by
  rw [digest_eq, digest_eq]
  rfl

theorem upToDate_keeping (id : Nat) (r : Rule) : (keeping id r).UpToDate := by
  rw [UpToDate, digest_keeping]
  exact ⟨_, rfl⟩

theorem nodup_digest_blank :
    ([grouped (blank .isTrue), blank .isTrue, grouped (blank .isFalse), blank .isFalse].map
      digest).Nodup := by
  decide +kernel

theorem renews_way_only_blank :
    let p := keeping 0 (blank .isTrue)
    let r := keeping 1 (grouped p)
    let p' := p.setOperator .isFalse
    let r' := r.setNode p' [.child 0]
    let s : Session := { fresh := 2 }
    (∀ n ∈ r.nodes, n.UpToDate) ∧ r.node? [.child 0] = some p ∧ p'.memo = p.memo ∧
      p'.digest ≠ p.digest ∧ Digest.Apart (r.texts ++ r'.texts) ∧
      (∃ c, (r'.compile false s).1.1 = .ok c) ∧ RenewedAt s (r'.compile false s).1.2 [] ∧
      RenewedAt s (r'.compile false s).1.2 [.child 0] := by
  have hdigests := nodup_digest_blank
  intro p r p' r' s
  have hkept : ∀ n ∈ r.nodes, n.UpToDate := by
    intro n hn
    rcases List.mem_cons.mp hn with rfl | hn
    · exact upToDate_keeping 1 _
    · rw [List.mem_singleton.mp hn]
      exact upToDate_keeping 0 _
  have hdigest : p'.digest ≠ p.digest := by
    have hfalse : p'.digest = (blank .isFalse).digest := by
      rw [digest_eq, digest_eq]
      rfl
    rw [hfalse, digest_keeping]
    simp only [List.map_cons, List.map_nil, List.nodup_cons, List.mem_cons, not_or] at hdigests
    exact Ne.symm hdigests.2.1.2.1
  have hapart : Digest.Apart (r.texts ++ r'.texts) := by
    have htexts : (r.texts ++ r'.texts).map Digest.sha256 = [grouped (blank .isTrue),
        blank .isTrue, grouped (blank .isFalse), blank .isFalse].map digest := by
      simp only [List.map_cons, digest_eq]
      rfl
    have hnodup : ((r.texts ++ r'.texts).map Digest.sha256).Nodup := by
      rw [htexts]
      exact hdigests
    exact fun x hx y hy => List.inj_on_of_nodup_map hnodup hx hy
  have hp : r.node? [.child 0] = some p := rfl
  have hmemo : p'.memo = p.memo := rfl
  have hok : ∃ c, (r'.compile false s).1.1 = .ok c := by
    have hstale : ∀ n ∈ r'.nodes, ¬n.UpToDate := by
      intro n hn
      rcases List.mem_cons.mp hn with rfl | hn
      · exact stale_onWay hkept hp hmemo hdigest hapart List.nil_prefix rfl
      · rw [List.mem_singleton.mp hn]
        exact stale_onWay hkept hp hmemo hdigest hapart (List.prefix_refl _) rfl
    have hsettles := compile_settles (show s.Sound from fun id => Session.reached_empty.sound id)
      (fun n hn m hm => faithful_of_stale (hstale n hn) hm) false
    cases hc : (r'.compile false s).1.1 with
    | ok c => exact ⟨c, rfl⟩
    | error f =>
      rw [hc, Work.Settles, show r'.audit = .ok () from rfl] at hsettles
      cases hsettles
  obtain ⟨c, hc⟩ := hok
  have hway := ((renews_way_only hkept hp hmemo).1 hdigest hapart s c hc).1
  refine ⟨hkept, hp, hmemo, hdigest, hapart, ⟨c, hc⟩, ?_, ?_⟩
  · exact hway [] List.nil_prefix
  · exact hway [.child 0] (List.prefix_refl _)

end Verdict.Rule
