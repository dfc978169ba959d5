import Verdict.Proofs.Rule.Editing

/-!
# Relying on kept checks

What a compiled check says of a tree whose scopes may write numbers differently.  The check may
have been kept since a rule below gave way to an equal one of another scope; so it says what a tree
means that is the rule but for the scopes of its nodes.  All that does not depend on how numbers
are written can be told from that.
-/

namespace Verdict.Rule

variable {tongue : ScopeId → String} {known : List String}

/-- The trees whose kept checks can be relied on: those that were compiled only, and those that
were edited as well, as long as the texts behind their digests do not collide. -/
inductive Reliable (tongue : ScopeId → String) (r : Rule) : Prop
  | warmed (h : Warmed tongue r)
  | edited {known : List String} (h : AtHand tongue (fun _ => ()) known r)
      (hknown : r.texts ⊆ known) (hapart : Digest.Apart known)

/-- A kept check was made of a tree, or of one that is this tree but for its scopes. -/
def Recorded (tongue : ScopeId → String) (known : List String) (m : Memo) : Prop :=
  ∃ t : Rule, m.digest = t.digest ∧ t.texts ⊆ known ∧ t.audit = .ok () ∧
    Recalls (fun _ => ⟨0⟩) tongue m.check t

/-- Checks of trees with the digest of a node recall the node. -/
theorem trusts_recorded (hapart : Digest.Apart known) {n : Rule} (hknown : n.texts ⊆ known) :
    Trusts (Recalls (fun _ => ⟨0⟩) tongue) (fun _ m => Recorded tongue known m) n where
  use m hm hdigest := by
    obtain ⟨t, ht, htexts, haudit, hrecalls⟩ := hm
    have hessence : t.essence = n.essence :=
      essence_of_digest (hapart.mono (List.append_subset.mpr ⟨htexts, hknown⟩))
        (ht.symm.trans hdigest)
    obtain ⟨t', hbare, hsays⟩ := hrecalls
    exact ⟨(audit_eq_of_bare _ hessence).symm.trans haudit, t', hbare.trans hessence, hsays⟩
  made c haudit hrecalls := ⟨n, rfl, hknown, haudit, hrecalls⟩

theorem compile_recorded (hapart : Digest.Apart known) {n : Rule} (hknown : n.texts ⊆ known)
    (hkeep : ∀ x ∈ n.nodes, ∀ m, x.memo = some m → Recorded tongue known m) {s : Session}
    (hs : s.Sound) (ht : s.tongue = tongue) (force : Bool) :
    Work.Settles n.audit (Recalls (fun _ => ⟨0⟩) tongue · n) (n.compile force s).1.1 ∧
      (n.compile force s).1.2.bare id = n.bare id ∧
      ∀ x ∈ (n.compile force s).1.2.nodes, ∀ m, x.memo = some m → Recorded tongue known m :=
  (compile_recalls force n (fun _ hx => trusts_recorded hapart
    (List.Subset.trans (List.map_subset _ (nodes_subset n hx)) hknown)) hkeep s hs ht).2

theorem AtHand.recorded (hapart : Digest.Apart known) {ι : Type} {family : ScopeId → ι} {r : Rule}
    (h : AtHand tongue family known r) :
    ∀ n ∈ r.nodes, ∀ m, n.memo = some m → Recorded tongue known m := by
  refine (h.akin_and (fun n hmemo m hm => ?_) (fun a b _ hmemo ha m hm => ?_) ?_).2
  · rw [hmemo] at hm
    cases hm
  · exact ha m (hmemo.trans hm)
  · intro n s force _ hkeep hknown hs ht
    exact (compile_recorded hapart hknown hkeep hs ht force).2

/-- A check says what a tree means that is the rule but for its scopes, and that is the rule itself
if it was never edited. -/
def SaysLike (tongue : ScopeId → String) (c : Check) (r : Rule) : Prop :=
  ∃ t : Rule, t.essence = r.essence ∧ (Warmed tongue r → t = r) ∧ Says tongue c t

/-- A tree that can be relied on compiles exactly if its audit passes. -/
theorem Reliable.compile_settles {r : Rule} {s : Session} (hr : Reliable s.tongue r) (hs : s.Sound)
    (force : Bool) :
    Work.Settles r.audit (SaysLike s.tongue · r) (r.compile force s).1.1 := by
  by_cases hwarmed : Warmed s.tongue r
  · exact (Rule.compile_settles hs hwarmed.keeps force).imp fun c hc => ⟨r, rfl, fun _ => rfl, hc⟩
  · cases hr with
    | warmed h => exact absurd h hwarmed
    | edited h hknown hapart =>
      refine (compile_recorded hapart hknown (h.recorded hapart) hs rfl force).1.imp fun c hc => ?_
      obtain ⟨t, hessence, hsays⟩ := hc
      exact ⟨t, hessence, fun h => absurd h hwarmed, hsays⟩

theorem Reliable.says_like {r : Rule} {s : Session} (hr : Reliable s.tongue r) (hs : s.Sound)
    {force : Bool} {c : Check} (hc : (r.compile force s).1.1 = .ok c) :
    r.audit = .ok () ∧ SaysLike s.tongue c r := by
  have hsettles := hr.compile_settles hs force
  rw [hc] at hsettles
  exact hsettles

end Verdict.Rule
