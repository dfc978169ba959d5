import Verdict.Proofs.Grove.Basic
import Verdict.Proofs.Grove.Slot
import Verdict.Proofs.Rule.Recompile

/-!
# The lives of nodes

A node is followed through all operations in a grove, and its slot takes part in nothing but its
own compilations, those for the sake of a node above among them, and moves of its tree.  So
compiling the node again returns the very same check as long as its digest is the same and no other
check has come into the slot.
-/

namespace Verdict

namespace Grove

open Rule (Branch Edit)

/-! ## Events of operations -/

/-- What the slot of a node takes part in when an operation is performed.  Compiling a tree compiles
a node below its root only if it comes to it. -/
def event? (g : Grove) : Operation → Place → Option SlotEvent
  | .move name _, q => if q.tree = name then some .moved else none
  | .compile place force, q =>
    if q.tree = place.tree then do
      let w ← q.way.dropPrefix? place.way
      let p ← g.node? place
      let n ← p.node? w
      let t ← p.visit force g.session w
      return .call (force && w.isEmpty) n.digest (n.compile (force && w.isEmpty) t).1.1
    else none
  | _, _ => none

/-- What becomes of a slot. -/
def Passes (start stop : Nat) (memo memo' : Option Memo) : Option SlotEvent → Prop
  | some e => memo' = e.after memo ∧ e.Fits start stop memo
  | none => memo' = memo

section Steps

variable {g h : Grove} {q q' place : Place} {r p p' n x : Rule} {name : String} {e : Edit}

theorem tree_followEdit (h : followEdit place e q = some q') : q'.tree = q.tree := by
  rw [followEdit] at h
  split at h
  · rename_i htree
    obtain ⟨w, -, rfl⟩ := Option.map_eq_some_iff.mp h
    exact htree.symm
  · cases h
    rfl

theorem followEdit_add (limb : Limb) : followEdit place (add x limb) q = some q := by
  have hfollow : ∀ w, (add x limb).follow w = some w := by
    cases limb <;> exact fun _ => rfl
  rw [followEdit]
  split
  · rename_i htree
    obtain ⟨tree, way⟩ := q
    by_cases hway : place.way <+: way
    · obtain ⟨w, rfl⟩ := hway
      rw [Edit.followFrom_append, hfollow, ← htree]
      rfl
    · rw [Edit.followFrom_aside _ hway, ← htree]
      rfl
  · rfl

theorem node?_followEdit (hr : g.trees place.tree = some r) (hp : r.node? place.way = some p)
    (he : e.apply p = some p') (hn : g.node? q = some n) (hq : followEdit place e q = some q') :
    ∃ n', (g.put place.tree (r.setNode p' place.way)).node? q' = some n' ∧ n'.memo = n.memo := by
  rw [followEdit] at hq
  split at hq
  · rename_i htree
    obtain ⟨w, hw, rfl⟩ := Option.map_eq_some_iff.mp hq
    rw [node?, htree, hr, Option.bind_some] at hn
    rw [node?_put_mk]
    exact Edit.node?_followFrom hp he hn hw
  · rename_i htree
    cases hq
    exact ⟨n, by rw [node?_put_of_ne htree, hn], rfl⟩

/-- Taking a rule away leaves the slots in its tree alone. -/
theorem node?_prune {b : Branch} (hname : g.trees name = none) (hr : g.trees place.tree = some r)
    (hp : r.node? place.way = some p) (hx : p.branch? b = some x)
    (he : (cut b).apply p = some p') (hn : g.node? q = some n)
    (hq : g.follow (.prune place b name) q = some q') :
    ∃ n', ((g.put place.tree (r.setNode p' place.way)).put name x).node? q' = some n' ∧
      n'.memo = n.memo := by
  have hstay : followEdit place (cut b) q = some q' →
      ∃ n', ((g.put place.tree (r.setNode p' place.way)).put name x).node? q' = some n' ∧
        n'.memo = n.memo := by
    intro hfollow
    rw [node?_put_of_ne (tree_followEdit hfollow ▸ ne_of_node? hn hname)]
    exact node?_followEdit hr hp he hn hfollow
  simp only [follow] at hq
  split at hq
  · rename_i htree
    split at hq
    · rename_i w hw
      cases hq
      rw [node?, htree, hr, Option.bind_some, Rule.eq_append_of_dropPrefix? hw, List.append_assoc,
        Rule.node?_append, hp, Option.bind_some, List.singleton_append, Rule.node?_cons, hx,
        Option.bind_some] at hn
      exact ⟨n, node?_put_mk.trans hn, rfl⟩
    · exact hstay hq
  · rename_i htree
    refine hstay ?_
    rw [followEdit, if_neg htree]
    exact hq

/-- Adding a tree below a node leaves the slots in both trees alone. -/
theorem node?_graft {limb : Limb} (hname : name ≠ place.tree) (hx : g.trees name = some x)
    (hr : g.trees place.tree = some r) (hp : r.node? place.way = some p)
    (he : (add x limb).apply p = some p') (hn : g.node? q = some n)
    (hq : g.follow (.graft place limb name) q = some q') :
    ∃ n', ((g.put name none).put place.tree (r.setNode p' place.way)).node? q' = some n' ∧
      n'.memo = n.memo := by
  have hplace : g.node? place = some p := by rw [node?, hr, Option.bind_some, hp]
  simp only [follow] at hq
  split at hq
  · rename_i htree
    rw [hx, hplace] at hq
    cases hq
    rw [node?, htree, hx, Option.bind_some] at hn
    refine ⟨n, ?_, rfl⟩
    rw [node?_put_mk, Rule.node?_setNode_append hp, Edit.node?_port he (guest?_add x limb), hn]
  · rename_i htree
    have hr' : (g.put name none).trees place.tree = some r :=
      (trees_put_of_ne hname.symm).trans hr
    exact node?_followEdit hr' hp he ((node?_put_of_ne htree).trans hn)
      ((followEdit_add limb).trans hq)

theorem node?_move {scope : ScopeId} (hr : g.trees name = some r) (hn : g.node? q = some n)
    (htree : q.tree = name) :
    ∃ n', (g.put name (r.withScope scope)).node? q = some n' ∧ n'.memo = none := by
  rw [node?, htree, hr, Option.bind_some] at hn
  have hbare : ((r.withScope scope).bare id).node? q.way = (r.bare fun _ => scope).node? q.way :=
    congrArg (Rule.node? · q.way) (Rule.bare_withScope scope r)
  rw [Rule.node?_bare, Rule.node?_bare, hn] at hbare
  obtain ⟨n', hn', -⟩ := Option.map_eq_some_iff.mp hbare
  exact ⟨n', (node?_put_self htree).trans hn',
    (Rule.mem_nodes_withScope scope r n' (Rule.node?_mem_nodes hn')).2⟩

theorem passes_compile {force : Bool} {s t u : Session} (hst : s.Before t)
    (htu : (n.compile force t).2.Before u) :
    Passes s.fresh u.fresh n.memo (n.compile force t).1.2.memo
      (some (.call force n.digest (n.compile force t).1.1)) := by
  have hcompiles := Rule.compiles force n t
  rcases hresult : (n.compile force t).1.1 with f | c <;> rw [hresult] at hcompiles
  · refine ⟨?_, trivial⟩
    rw [hcompiles.memo_eq (.inr ⟨f, rfl⟩)]
    cases force <;> rfl
  · refine ⟨?_, ?_⟩
    · cases force with
      | true => exact hcompiles.memo_eq (.inl rfl)
      | false =>
        exact Rule.memo_compile hresult
    · rcases hcompiles.check with hkept | ⟨hbuilds, hold, hnew⟩
      · exact .inl hkept
      · refine .inr ⟨?_, Nat.le_trans hst.fresh hold, Nat.lt_of_lt_of_le hnew htu.fresh⟩
        rintro rfl d hd
        exact hbuilds.elim Bool.false_ne_true fun hstale => hstale ⟨d, hd⟩

/-- Compiling a node compiles some of the nodes below it and leaves all other slots alone. -/
theorem node?_compile {force : Bool} (hr : g.trees place.tree = some r)
    (hp : r.node? place.way = some p) (hn : g.node? q = some n) :
    ∃ n', (g.put place.tree (r.setNode (p.compile force g.session).1.2 place.way)).node? q =
        some n' ∧
      Passes g.session.fresh (p.compile force g.session).2.fresh n.memo n'.memo
        (g.event? (.compile place force) q) := by
  have hplace : g.node? place = some p := by rw [node?, hr, Option.bind_some, hp]
  by_cases htree : q.tree = place.tree
  · rw [node?, htree, hr, Option.bind_some] at hn
    simp only [event?, if_pos htree, node?_put_self htree]
    by_cases hway : place.way <+: q.way
    · obtain ⟨w, hw⟩ := hway
      rw [← hw, Rule.node?_append, hp, Option.bind_some] at hn
      rw [← hw, Rule.dropPrefix?_append, Rule.node?_setNode_append hp, Rule.node?_compile, hplace,
        hn]
      refine ⟨_, rfl, ?_⟩
      simp only [Option.bind_eq_bind, Option.bind_some, hn]
      cases ht : p.visit force g.session w with
      | none => rfl
      | some t =>
        obtain ⟨hbefore, hafter⟩ := Rule.before_visit ht hn
        exact passes_compile hbefore hafter
    · rw [Rule.dropPrefix?_aside hway]
      by_cases hq : q.way <+: place.way
      · obtain ⟨rest, -, hn', hmemo⟩ := Rule.node?_setNode_onWay hp hq
          (fun h => absurd (h ▸ List.prefix_refl q.way) hway) hn
        exact ⟨_, hn', hmemo⟩
      · exact ⟨n, (Rule.node?_setNode_aside hp hq hway _).trans hn, rfl⟩
  · rw [event?, if_neg htree]
    exact ⟨n, (node?_put_of_ne htree).trans hn, rfl⟩

/-- Every operation is at most one event at the slot of a node. -/
theorem Performs.passes {op : Operation} (hstep : Performs g op h) (hn : g.node? q = some n)
    (hq : g.follow op q = some q') :
    ∃ n', h.node? q' = some n' ∧
      Passes g.session.fresh h.session.fresh n.memo n'.memo (g.event? op q) := by
  cases hstep with
  | plant hname _ | copy hname _ =>
    cases hq
    exact ⟨n, (node?_put_of_ne (ne_of_node? hn hname)).trans hn, rfl⟩
  | @drop name =>
    obtain ⟨htree, hq⟩ := Option.ite_none_left_eq_some.mp hq
    cases hq
    exact ⟨n, (node?_put_of_ne htree).trans hn, rfl⟩
  | edit _ hr hp he => exact node?_followEdit hr hp he hn hq
  | graft hname hx hr hp he => exact node?_graft hname hx hr hp he hn hq
  | prune hname hr hp hx he => exact node?_prune hname hr hp hx he hn hq
  | @move name scope r hr =>
    cases hq
    by_cases htree : q.tree = name
    · obtain ⟨n', hn', hmemo⟩ := node?_move hr hn htree
      rw [event?, if_pos htree]
      exact ⟨n', hn', hmemo, trivial⟩
    · rw [event?, if_neg htree]
      exact ⟨n, (node?_put_of_ne htree).trans hn, rfl⟩
  | compile hr hp =>
    cases hq
    exact node?_compile hr hp hn
  | _ =>
    cases hq
    exact ⟨n, hn, rfl⟩

end Steps

/-! ## Runs -/

/-- A node is followed from its place in one grove to its place in another, and its slot takes part
in events on the way. -/
inductive Life : Grove → Place → List SlotEvent → Grove → Place → Prop
  | start (g : Grove) (q : Place) : Life g q [] g q
  | step {g h k : Grove} {op : Operation} {q q' q'' : Place} {es : List SlotEvent}
      (hstep : Performs g op h) (hq : g.follow op q = some q') (hrest : Life h q' es k q'') :
      Life g q ((g.event? op q).toList ++ es) k q''

theorem Life.orderly {g h : Grove} {q q' : Place} {es : List SlotEvent} (hlife : Life g q es h q')
    {n : Rule} (hn : g.node? q = some n) : Orderly g.session.fresh n.memo es := by
  induction hlife generalizing n with
  | start => exact .nil
  | @step g h k op q q' q'' es hstep hq hrest ih =>
    obtain ⟨n', hn', hpasses⟩ := hstep.passes hn hq
    have hle := hstep.before.fresh
    cases he : g.event? op q with
    | none =>
      rw [he] at hpasses
      have hsame : n'.memo = n.memo := hpasses
      exact hsame ▸ (ih hn').of_le hle
    | some e =>
      rw [he] at hpasses
      obtain ⟨hmemo, hfits⟩ := hpasses
      exact .cons (Nat.le_refl _) hle hfits (hmemo ▸ ih hn')

/-! ## Kept checks are older than new ones -/

def AllDated (fresh : Nat) (r : Rule) : Prop :=
  ∀ n ∈ r.nodes, Dated fresh n.memo

section AllDated

variable {g h : Grove} {r p p' n : Rule} {fresh : Nat} {way : List Branch}

theorem AllDated.node? (hr : AllDated fresh r) (hn : r.node? way = some n) : AllDated fresh n :=
  fun x hx => hr x (Rule.nodes_subset_node? hn hx)

theorem AllDated.setNode (hr : AllDated fresh r) (hp : r.node? way = some p)
    (hp' : AllDated fresh p') : AllDated fresh (r.setNode p' way) :=
  Rule.forall_nodes_setNode (fun _ _ _ hmemo h => hmemo ▸ h) hp' hp hr

theorem AllDated.apply {e : Edit} (hp : AllDated fresh p) (he : e.apply p = some p')
    (hguest : ∀ x, e.guest? = some x → AllDated fresh x) : AllDated fresh p' := by
  intro n hn
  rcases Edit.stood_or_guest he hn with ⟨y, hy, -, hmemo⟩ | ⟨x, hx, hn⟩
  · exact hmemo ▸ hp y hy
  · exact hguest x hx n hn

theorem AllDated.compile {s : Session} (hp : AllDated s.fresh p) (force : Bool) :
    AllDated (p.compile force s).2.fresh (p.compile force s).1.2 := by
  intro n' hn'
  obtain ⟨way, hway⟩ := Rule.exists_node?_of_mem _ hn'
  rw [Rule.node?_compile] at hway
  obtain ⟨n, hn, rfl⟩ := Option.map_eq_some_iff.mp hway
  have hold := hp n (Rule.node?_mem_nodes hn)
  have hle := (Rule.compile_advances force p s).fresh
  cases ht : p.visit force s way with
  | none => exact hold.of_le hle
  | some t =>
    obtain ⟨hbefore, hafter⟩ := Rule.before_visit ht hn
    obtain ⟨hmemo, hfits⟩ := passes_compile hbefore hafter
    rw [Rule.visited, hmemo]
    exact SlotEvent.dated_after hfits hold hle

theorem Performs.allDated {op : Operation} (hstep : Performs g op h)
    (hg : g.All (AllDated g.session.fresh)) : h.All (AllDated h.session.fresh) := by
  have hlater : ∀ {s : Session}, g.session.Before s → g.All (AllDated s.fresh) :=
    fun hs => hg.imp fun r hr n hn => (hr n hn).of_le hs.fresh
  have hcold : ∀ {r : Rule} {fresh}, (∀ n ∈ r.nodes, n.memo = none) → AllDated fresh r := by
    intro r fresh hmemo n hn m hm
    rw [hmemo n hn] at hm
    cases hm
  have hbefore := hstep.before
  cases hstep with
  | plant _ hmemo => exact hg.put_some (hcold hmemo)
  | copy _ hp =>
    obtain ⟨r, hr, hp⟩ := node?_eq_some hp
    exact hg.put_some ((hg _ _ hr).node? hp)
  | drop => exact hg.put_none
  | edit hguest hr hp he =>
    have hr := hg _ _ hr
    refine hg.put_some (hr.setNode hp ((hr.node? hp).apply he ?_))
    rw [hguest]
    exact nofun
  | @graft q limb name r p p' x _ hx hr hp he =>
    have hr := hg _ _ hr
    refine hg.put_none.put_some (hr.setNode hp ((hr.node? hp).apply he ?_))
    rw [guest?_add]
    exact fun y hy => Option.some.inj hy ▸ hg _ _ hx
  | @prune q b name r p p' x _ hr hp hx he =>
    have hr := hg _ _ hr
    refine (hg.put_some (hr.setNode hp ((hr.node? hp).apply he ?_))).put_some
      ((hr.node? hp).node? (Rule.node?_singleton hx))
    rw [guest?_cut]
    exact nofun
  | @move name scope r _ =>
    exact hg.put_some (hcold fun n hn => (Rule.mem_nodes_withScope scope r n hn).2)
  | @compile q force r p hr hp =>
    refine (hlater hbefore).put_some ((hlater hbefore _ _ hr).setNode hp ?_)
    exact ((hg _ _ hr).node? hp).compile force
  | run | fetchPath | fetchPattern | clearPaths => exact hlater hbefore

end AllDated

def Reachable (g : Grove) : Prop :=
  ∃ g₀ : Grove, (∀ name, g₀.trees name = none) ∧ Reaches g₀ g

theorem Reachable.allDated {g : Grove} (hreach : Reachable g) :
    g.All (AllDated g.session.fresh) := by
  obtain ⟨g₀, hempty, hreach⟩ := hreach
  induction hreach with
  | refl => exact fun name r hr => nomatch (hempty name).symm.trans hr
  | tail _ hstep ih =>
    obtain ⟨op, hstep⟩ := hstep
    exact hstep.allDated ih

theorem Reachable.dated {g : Grove} (hreach : Reachable g) {q : Place} {n : Rule}
    (hn : g.node? q = some n) : Dated g.session.fresh n.memo := by
  obtain ⟨r, hr, hn⟩ := node?_eq_some hn
  exact hreach.allDated _ r hr n (Rule.node?_mem_nodes hn)

/-! ## One slot through a whole run -/

/-- An operation compiles a node and comes to a check. -/
def Returns (g : Grove) (op : Operation) (q : Place) (c : Check) : Prop :=
  ∃ force digest, g.event? op q = some (.call force digest (.ok c))

def Returned (g : Grove) (c : Check) : Prop :=
  ∃ k op k' q, Reachable k ∧ Performs k op k' ∧ Reaches k' g ∧ Returns k op q c

section Returned

variable {g h : Grove} {op : Operation} {place q q' : Place} {p n : Rule} {force : Bool}
  {digest : String} {result : Except Fault Check} {c d : Check}

theorem event?_eq_call (he : g.event? op q = some (.call force digest result)) :
    ∃ place force' p w n t, op = .compile place force' ∧ g.node? place = some p ∧
      q = ⟨place.tree, place.way ++ w⟩ ∧ p.node? w = some n ∧
      p.visit force' g.session w = some t ∧ force = (force' && w.isEmpty) ∧ digest = n.digest ∧
      result = (n.compile force t).1.1 := by
  cases op with
  | compile place force' =>
    obtain ⟨htree, he⟩ := Option.ite_none_right_eq_some.mp he
    obtain ⟨w, hw, he⟩ := Option.bind_eq_some_iff.mp he
    obtain ⟨p, hp, he⟩ := Option.bind_eq_some_iff.mp he
    obtain ⟨n, hn, he⟩ := Option.bind_eq_some_iff.mp he
    obtain ⟨t, ht, he⟩ := Option.bind_eq_some_iff.mp he
    cases he
    obtain ⟨tree, way⟩ := q
    cases htree
    cases Rule.eq_append_of_dropPrefix? hw
    exact ⟨place, force', p, w, n, t, rfl, hp, rfl, hn, ht, rfl, rfl, rfl⟩
  | move name scope => cases (Option.ite_none_right_eq_some.mp he).2
  | _ => cases he

theorem Returned.lt (hc : Returned g c) : c.id < g.session.fresh := by
  obtain ⟨k, op, k', q, hreach, hstep, hlater, force, digest, he⟩ := hc
  obtain ⟨place, force', p, w, n, t, rfl, hp, rfl, hn, -⟩ := event?_eq_call he
  have hnode := node?_below hp hn
  obtain ⟨n', -, hpasses⟩ := hstep.passes hnode rfl
  rw [he] at hpasses
  have hold := hreach.dated hnode
  exact Nat.lt_of_lt_of_le (hpasses.2.dated hold hstep.before.fresh) hlater.before.fresh

/-- A forced compilation comes to a new check, after all those that are returned on the way. -/
theorem lt_of_forced (hreach : Reachable g)
    (he : g.event? op q = some (.call true digest (.ok c))) :
    g.session.fresh ≤ c.id ∧ ∀ q' d, q' ≠ q → Returns g op q' d → d.id < c.id := by
  obtain ⟨place, force', p, w, n, t, rfl, hp, rfl, hn, ht, hforce, -, hc⟩ := event?_eq_call he
  obtain ⟨rfl, hw⟩ := Bool.and_eq_true_iff.mp hforce.symm
  cases List.isEmpty_iff.mp hw
  cases hn
  cases ht
  have hcompiles := Rule.compiles true p g.session
  rw [← hc] at hcompiles
  have hnew : g.session.fresh ≤ c.id := by
    rcases hcompiles.check with ⟨hforce, -⟩ | ⟨-, hid, -⟩
    · cases hforce
    · exact hid
  refine ⟨hnew, fun q' d hne ⟨force, digest', hreturn⟩ => ?_⟩
  obtain ⟨place, force', p', w, x, u, heq, hp', rfl, hx, hu, hforce, -, hd⟩ :=
    event?_eq_call hreturn
  cases heq
  cases hp.symm.trans hp'
  cases w with
  | nil => exact absurd rfl hne
  | cons b w =>
    -- the call belongs to the turn of a rule below the node
    have hold : Dated g.session.fresh x.memo := hreach.dated (node?_below hp hx)
    obtain ⟨child, hchild, hx⟩ := Rule.node?_cons_eq_some hx
    rw [Rule.visit, hchild] at hu
    obtain ⟨v, hv, hu⟩ := Option.bind_eq_some_iff.mp hu
    rw [List.isEmpty_cons, Bool.and_false] at hforce
    cases hforce
    obtain ⟨-, hafter⟩ := Rule.before_visit hu hx
    have hcalls := Rule.compiles false x u
    rw [← hd] at hcalls
    rcases hcalls.check with ⟨-, hkept⟩ | ⟨-, -, hid⟩
    · exact Nat.lt_of_lt_of_le (hold _ hkept) hnew
    · calc d.id
        _ < (x.compile false u).2.fresh := hid
        _ ≤ (child.compile false v).2.fresh := hafter.fresh
        _ ≤ c.id := hcompiles.turnBelow_le hv hchild

end Returned

/-- In every grove that comes about:
* only a move and an unforced compilation that succeeds touch the slot of a node;
* a forced compilation returns a check that none has returned before, not even one on the way;
* two unforced compilations of a node that succeed return one and the same check exactly if the
  digest of the node is the same and nothing in between has displaced the check from the slot;
* the nodes of a copy start with what is in the slots of those that they are copies of. -/
theorem single_slot {g : Grove} (hreach : Reachable g) :
    (∀ op h q q' n, Performs g op h → g.node? q = some n → g.follow op q = some q' →
      ∃ n', h.node? q' = some n' ∧
        (n'.memo = n.memo ∨ g.event? op q = some .moved ∨
          ∃ digest c, g.event? op q = some (.call false digest (.ok c)))) ∧
    (∀ op q digest c, g.event? op q = some (.call true digest (.ok c)) →
      ∀ d, (Returned g d ∨ ∃ q', q' ≠ q ∧ Returns g op q' d) → d.id ≠ c.id) ∧
    (∀ q n, g.node? q = some n → ∀ pre mid post digest digest' c c' h q',
      Life g q (pre ++ .call false digest (.ok c) :: (mid ++ .call false digest' (.ok c') :: post))
        h q' →
      [c = c', c.id = c'.id, digest = digest' ∧ ∀ e ∈ mid, ¬ e.Displaces digest].TFAE) ∧
    ∀ q name h, Performs g (.copy q name) h →
      ∀ way, h.node? ⟨name, way⟩ = g.node? ⟨q.tree, q.way ++ way⟩ := by
  refine ⟨fun op h q q' n hstep hn hq => ?_, fun op q digest c he d hd => ?_,
    fun q n hn pre mid post digest digest' c c' h q' hlife => ?_, fun q name h hstep way => ?_⟩
  · obtain ⟨n', hn', hpasses⟩ := hstep.passes hn hq
    refine ⟨n', hn', ?_⟩
    cases he : g.event? op q with
    | none =>
      rw [he] at hpasses
      exact .inl hpasses
    | some e =>
      rw [he] at hpasses
      rcases e.clears_or_fills with rfl | ⟨digest, c, rfl⟩ | ⟨hsame, -⟩
      · exact .inr (.inl rfl)
      · exact .inr (.inr ⟨digest, c, rfl⟩)
      · exact .inl (hpasses.1.trans (hsame n.memo))
  · obtain ⟨hnew, hway⟩ := lt_of_forced hreach he
    rcases hd with hd | ⟨q', hne, hd⟩
    · exact Nat.ne_of_lt (Nat.lt_of_lt_of_le hd.lt hnew)
    · exact Nat.ne_of_lt (hway q' d hne hd)
  · exact (hlife.orderly hn).returns_same (hreach.dated hn)
  · cases hstep with
    | copy hname hp =>
      obtain ⟨r, hr, hp⟩ := node?_eq_some hp
      rw [node?_put_mk, node?, hr, Option.bind_some, Rule.node?_append, hp, Option.bind_some]

/-! ## A rule that is changed and changed back -/

theorem event?_compile {g : Grove} {place : Place} {n : Rule} (hn : g.node? place = some n)
    (force : Bool) : g.event? (.compile place force) place =
      some (.call force n.digest (n.compile force g.session).1.1) := by
  have hw := Rule.dropPrefix?_append place.way []
  rw [List.append_nil] at hw
  rw [event?, if_pos rfl, hw, hn]
  simp [Rule.node?, Rule.visit]

/-- A rule that tests nothing, whatever it has kept. -/
def IsBlank (op : Operator) (r : Rule) : Prop :=
  r.test = .presence none ∧ r.operator = op ∧ r.dependencies = [] ∧ r.locals = []

theorem IsBlank.digest {op : Operator} {r : Rule} (h : IsBlank op r) :
    r.digest = (Rule.blank op).digest := by
  obtain ⟨test, op, dependencies, locals, description, scope, memo⟩ := r
  obtain ⟨rfl, rfl, rfl, rfl⟩ := h
  rw [Rule.digest_eq, Rule.digest_eq]
  rfl

theorem IsBlank.compiles {op : Operator} {force : Bool} {r r' : Rule} {s s' : Session}
    {result : Except Fault Check} (h : IsBlank op r) (hc : Rule.Compiles force r s result r' s') :
    (∃ c, result = .ok c) ∧ IsBlank op r' := by
  obtain ⟨test, op, dependencies, locals, description, scope, memo⟩ := r
  obtain ⟨rfl, rfl, rfl, rfl⟩ := h
  cases hc with
  | found _ _ => exact ⟨⟨_, rfl⟩, rfl, rfl, rfl, rfl⟩
  | badLocals _ hlocals => cases hlocals
  | badDependency _ _ hdepend => cases hdepend
  | badTest _ _ _ htest => cases htest
  | made _ _ hdepend htest _ =>
    cases hdepend
    cases htest
    exact ⟨⟨_, rfl⟩, rfl, rfl, rfl, rfl⟩

/-- The grove holds one blank rule and nothing else. -/
def Holds (op : Operator) (name : String) (g : Grove) : Prop :=
  ∃ r, g.trees name = some r ∧ IsBlank op r

section Holds

variable {g : Grove} {op op' : Operator} {name : String}

theorem Holds.compile (hg : Holds op name g) :
    ∃ h c, Performs g (.compile ⟨name, []⟩ false) h ∧ Holds op name h ∧
      g.event? (.compile ⟨name, []⟩ false) ⟨name, []⟩ =
        some (.call false (Rule.blank op).digest (.ok c)) := by
  obtain ⟨r, hr, hblank⟩ := hg
  obtain ⟨⟨c, hc⟩, hblank'⟩ := hblank.compiles (Rule.compiles false r g.session)
  have hnode : g.node? ⟨name, []⟩ = some r := by rw [node?, hr]; rfl
  refine ⟨_, c, .compile (q := ⟨name, []⟩) hr rfl, ⟨_, trees_put_self, hblank'⟩, ?_⟩
  rw [event?_compile hnode, hc, hblank.digest]

theorem Holds.edit (hg : Holds op name g) (op' : Operator) :
    ∃ h, Performs g (.edit ⟨name, []⟩ (.operator op')) h ∧ Holds op' name h ∧
      g.follow (.edit ⟨name, []⟩ (.operator op')) ⟨name, []⟩ = some ⟨name, []⟩ := by
  obtain ⟨r, hr, htest, -, hdepend, hlocals⟩ := hg
  refine ⟨_, .edit (q := ⟨name, []⟩) rfl hr rfl rfl,
    ⟨_, trees_put_self, htest, rfl, hdepend, hlocals⟩, ?_⟩
  rw [follow, followEdit, if_pos rfl]
  rfl

end Holds

theorem single_slot_blank :
    ∃ (g h : Grove) (q : Place) (c c' c'' : Check), Reachable g ∧
      Life g q [.call false (Rule.blank .isTrue).digest (.ok c),
        .call false (Rule.blank .isFalse).digest (.ok c'),
        .call false (Rule.blank .isTrue).digest (.ok c'')] h q ∧ c.id ≠ c''.id := by
  have hne : (Rule.blank .isFalse).digest ≠ (Rule.blank .isTrue).digest := by
    have hdigests := Rule.nodup_digest_blank
    simp only [List.map_cons, List.map_nil, List.nodup_cons, List.mem_cons, not_or] at hdigests
    exact Ne.symm hdigests.2.1.2.1
  let empty : Grove := ⟨{}, fun _ => none⟩
  let g := empty.put "rule" (Rule.blank .isTrue)
  have hreach : Reachable g := by
    refine ⟨empty, fun _ => rfl, .single ⟨_, .plant rfl ?_⟩⟩
    intro n hn
    rw [List.mem_singleton.mp hn]
  have hg : Holds .isTrue "rule" g := ⟨Rule.blank .isTrue, rfl, rfl, rfl, rfl, rfl⟩
  have hnode : g.node? ⟨"rule", []⟩ = some (Rule.blank .isTrue) := rfl
  obtain ⟨g₁, c, hstep₁, hg₁, he₁⟩ := hg.compile
  obtain ⟨g₂, hstep₂, hg₂, hq₂⟩ := hg₁.edit .isFalse
  obtain ⟨g₃, c', hstep₃, hg₃, he₃⟩ := hg₂.compile
  obtain ⟨g₄, hstep₄, hg₄, hq₄⟩ := hg₃.edit .isTrue
  obtain ⟨g₅, c'', hstep₅, hg₅, he₅⟩ := hg₄.compile
  have hlife := Life.step hstep₁ rfl (.step hstep₂ hq₂ (.step hstep₃ rfl (.step hstep₄ hq₄
    (.step hstep₅ rfl (.start g₅ ⟨"rule", []⟩)))))
  rw [he₁, he₃, he₅] at hlife
  have hother : ∀ digest digest', digest' ≠ digest →
      Life g ⟨"rule", []⟩ [.call false digest (.ok c), .call false digest' (.ok c'),
        .call false digest (.ok c'')] g₅ ⟨"rule", []⟩ → c.id ≠ c''.id := by
    intro digest digest' hne hlife hid
    have hsame := (single_slot hreach).2.2.1 _ _ hnode [] [.call false digest' (.ok c')] []
      digest digest c c'' g₅ _ hlife
    have hkept : digest = digest ∧ ∀ e ∈ [SlotEvent.call false digest' (.ok c')],
        ¬ e.Displaces digest := (hsame.out 1 2).mp hid
    exact hkept.2 _ List.mem_cons_self hne
  exact ⟨g, g₅, ⟨"rule", []⟩, c, c', c'', hreach, hlife, hother _ _ hne hlife⟩

end Grove

end Verdict
