import Verdict.Proofs.Grove.Life
import Verdict.Proofs.Rule.Reliance
import Verdict.Proofs.Rule.Timeless

/-!
# Checks are snapshots

A check that has once been returned answers as it did then, whatever is done in the grove.  Only the
time may change what it says, and not even that if the rule that was compiled reads no day beside
the current one.
-/

namespace Verdict.Grove

open Rule (AtHand Branch Edit Reliable)

/-! ## Trees are at hand -/

/-- The texts behind all digests that an operation makes are known. -/
def Operation.Within (known : List String) (g : Grove) : Operation → Prop
  | .compile place _ => ∀ p, g.node? place = some p → p.texts ⊆ known
  | _ => True

/-- Operations within known texts lead from one grove to the other. -/
def ReachesWithin (known : List String) : Grove → Grove → Prop :=
  Relation.ReflTransGen fun g h => ∃ op, Performs g op h ∧ op.Within known g

section AtHand

variable {known : List String} {g h : Grove} {op : Operation}

theorem Performs.atHand (hstep : Performs g op h) (hwithin : op.Within known g)
    (hs : g.session.Sound) (hg : g.All (AtHand g.session.tongue (fun _ => ()) known)) :
    h.All (AtHand h.session.tongue (fun _ => ()) known) := by
  rw [hstep.before.tongue]
  -- with one family for all scopes, all trees are akin
  have hakin : ∀ r : Rule, r.Akin fun _ => () := fun _ _ _ => rfl
  cases hstep with
  | plant _ hcold => exact hg.put_some (.make hcold (hakin _))
  | copy _ hp =>
    obtain ⟨r, hr, hp⟩ := node?_eq_some hp
    exact hg.put_some ((hg _ _ hr).part hp)
  | drop => exact hg.put_none
  | @edit q e r p p' hguest hr hp he =>
    refine hg.put_some ((hg _ _ hr).edit e ?_ hp he (hakin _))
    rw [hguest]
    exact nofun
  | @graft q limb name r p p' x _ hx hr hp he =>
    refine hg.put_none.put_some ((hg _ _ hr).edit (add x limb) ?_ hp he (hakin _))
    rw [guest?_add]
    exact fun y hy => Option.some.inj hy ▸ hg _ _ hx
  | @prune q b name r p p' x _ hr hp hx he =>
    refine (hg.put_some ((hg _ _ hr).edit (cut b) ?_ hp he (hakin _))).put_some
      (((hg _ _ hr).part hp).part (Rule.node?_singleton hx))
    rw [guest?_cut]
    exact nofun
  | @move name scope r hr => exact hg.put_some ((hg _ _ hr).move scope)
  | @compile q force r p hr hp =>
    have hknown : p.texts ⊆ known := hwithin p (by rw [node?, hr, Option.bind_some, hp])
    exact hg.put_some ((hg _ _ hr).compile force hp hknown hs rfl)
  | run | fetchPath | fetchPattern | clearPaths => exact hg

theorem ReachesWithin.reaches (hreach : ReachesWithin known g h) : Reaches g h := by
  induction hreach with
  | refl => exact .refl
  | tail _ hstep ih =>
    obtain ⟨op, hstep, -⟩ := hstep
    exact ih.tail ⟨op, hstep⟩

theorem ReachesWithin.atHand {g₀ : Grove} (hempty : ∀ name, g₀.trees name = none)
    (hs : g₀.session.Sound) (hreach : ReachesWithin known g₀ g) :
    g.All (AtHand g.session.tongue (fun _ => ()) known) := by
  induction hreach with
  | refl => exact fun name r hr => nomatch (hempty name).symm.trans hr
  | tail hreach hstep ih =>
    obtain ⟨op, hstep, hwithin⟩ := hstep
    have hbefore := (ReachesWithin.reaches hreach).before
    exact hstep.atHand hwithin (hbefore.sound hs) ih

end AtHand

/-! ## Later runs -/

section Later

variable {known : List String} {g₀ g k h : Grove} {op : Operation} {q : Place} {n : Rule}
  {c : Check}

/-- A check of a rule that reads no day beside the current one comes to the same at all times. -/
theorem run_eq_of_timeless {s t u : Session} (hn : Reliable s.tongue n) (hs : s.Sound)
    {force : Bool} (hc : (n.compile force s).1.1 = .ok c) (htimeless : n.isTimeless = true)
    (ht : t.Sound) (hu : u.Sound) (now now' : Instant) (record : Json) (env : Environment) :
    (c.run now record env t).1 = (c.run now' record env u).1 := by
  obtain ⟨-, r, hessence, -, hsays⟩ := hn.says_like hs hc
  have hr : r.isTimeless = true := by
    rw [Rule.isTimeless_of_essence hessence]
    exact htimeless
  have hsteady : ∀ x ∈ r.nodes, Rule.Steady s.tongue s.tongue now now' x := fun x hx =>
    ⟨rfl, .inl (List.all_eq_true.mp hr x hx)⟩
  have hmeans := congrFun (congrFun (Rule.interpret_congr r hsteady) record) env
  obtain ⟨_, hrun, -⟩ := hsays now record env t ht
  obtain ⟨_, hrun', -⟩ := hsays now' record env u hu
  rw [hrun, hrun', hmeans]

/-- A check that an operation comes to, at the compiled node or on the way, answers ever after as it
did then: at the same time, or at all times if it reads no day beside the current one.  It reads
none if the compiled rule does not and the texts compiled so far do not collide. -/
theorem run_eq_of_reaches (hempty : ∀ name, g₀.trees name = none) (hsound : g₀.session.Sound)
    (hreach : Reaches g₀ g) (hstep : Performs g op k) (hn : g.node? q = some n)
    (hc : Returns g op q c) (hlater : Reaches k h) {now now' : Instant}
    (hclock : now = now' ∨ c.isTimeless = true ∨
      n.isTimeless = true ∧ ∃ known, ReachesWithin known g₀ g ∧ n.texts ⊆ known ∧
        Digest.Apart known) (record : Json) (env : Environment) :
    (c.run now record env k.session).1 = (c.run now' record env h.session).1 := by
  have hg := hreach.before.sound hsound
  have hk := hstep.before.sound hg
  have hh := hlater.before.sound hk
  rw [← or_assoc] at hclock
  rcases hclock with hsame | ⟨htimeless, known, hwithin, htexts, hapart⟩
  · exact (Check.run_agree c hsame record env).eq hk hh
  · obtain ⟨force, digest, he⟩ := hc
    obtain ⟨place, force', p, w, x, t, rfl, hp, rfl, hx, ht, -, -, hresult⟩ := event?_eq_call he
    obtain rfl : x = n := Option.some.inj ((node?_below hp hx).symm.trans hn)
    have hbefore := (Rule.before_visit ht hx).1
    have hreliable : Reliable t.tongue x := by
      obtain ⟨r, hr, hx⟩ := node?_eq_some hn
      rw [hbefore.tongue]
      exact .edited ((hwithin.atHand hempty hsound _ r hr).part hx) htexts hapart
    exact run_eq_of_timeless hreliable (hbefore.sound hg) hresult.symm htimeless hk hh
      now now' record env

end Later

/-- The rule is compiled, edited and dropped, and the cache of its path is cleared. -/
theorem run_eq_of_reaches_dropped :
    let r := Rule.simple ⟨0⟩ "age" .equal (.ofInt 3)
    let g := Grove.put ⟨{}, fun _ => none⟩ "rule" r
    let q : Place := ⟨"rule", []⟩
    ∃ k h c, Performs g (.compile q true) k ∧ Returns g (.compile q true) q c ∧ Reaches k h ∧
      h.trees "rule" = none ∧ ∀ now now' record env,
        (c.run now record env k.session).1 = (c.run now' record env h.session).1 := by
  intro r g q
  have hok : (r.compile true {}).1.1.isOk = true := by decide +kernel
  obtain ⟨c, hc⟩ : ∃ c, (r.compile true {}).1.1 = .ok c := by
    cases h : (r.compile true {}).1.1 with
    | ok c => exact ⟨c, rfl⟩
    | error f => cases hok.symm.trans (congrArg Except.isOk h)
  have hcold : ∀ n ∈ r.nodes, n.memo = none := fun n hn => by rw [List.mem_singleton.mp hn]
  have hwithin : ReachesWithin r.texts ⟨{}, fun _ => none⟩ g :=
    .single ⟨.plant "rule" r, .plant rfl hcold, trivial⟩
  have hapart : Digest.Apart r.texts := fun x hx y hy _ => by
    rw [List.mem_singleton.mp hx, List.mem_singleton.mp hy]
  have hnode : g.node? q = some r := rfl
  have hreturns : Returns g (.compile q true) q c := by
    have hevent := event?_compile hnode true
    rw [show (r.compile true g.session).1.1 = .ok c from hc] at hevent
    exact ⟨true, r.digest, hevent⟩
  let k : Grove := { g.put q.tree (r.setNode (r.compile true g.session).1.2 q.way) with
    session := (r.compile true g.session).2 }
  have hcompile : Performs g (.compile q true) k := .compile rfl hnode
  have hlater : ∃ h, Reaches k h ∧ h.trees "rule" = none := by
    refine ⟨_, .tail (.tail (.single ⟨.edit q (.operator .notEqual), .edit rfl rfl rfl rfl⟩)
      ⟨.clearPaths ⟨0⟩, .clearPaths⟩) ⟨.drop "rule", .drop⟩, ?_⟩
    exact trees_put_self
  obtain ⟨h, hlater, hdropped⟩ := hlater
  refine ⟨k, h, c, hcompile, hreturns, hlater, hdropped, fun now now' record env => ?_⟩
  exact run_eq_of_reaches (fun _ => rfl) (fun id => Session.reached_empty.sound id)
    hwithin.reaches hcompile hnode hreturns hlater
    (.inr (.inr ⟨by decide, r.texts, hwithin, List.Subset.refl _, hapart⟩)) record env

end Verdict.Grove
