import Mathlib.Tactic.TFAE
import Verdict.Rule.Basic

/-!
# Slots

A node has a slot for the check that it keeps, and what happens to the slot can be told without the
node.  Calls put checks into it and find them there, moves empty it, and new checks are told apart
by identities that only grow.
-/

namespace Verdict

/-- What a slot takes part in: compilations of its node, each with the digest of the node and what
came of it, and moves to another scope. -/
inductive SlotEvent where
  | call (force : Bool) (digest : String) (result : Except Fault Check)
  | moved

def Dated (fresh : Nat) (memo : Option Memo) : Prop :=
  ∀ m, memo = some m → m.check.id < fresh

theorem Dated.of_le {fresh fresh' : Nat} {memo : Option Memo} (h : Dated fresh memo)
    (hle : fresh ≤ fresh') : Dated fresh' memo :=
  fun m hm => Nat.lt_of_lt_of_le (h m hm) hle

namespace SlotEvent

def after (memo : Option Memo) : SlotEvent → Option Memo
  | call false digest (.ok c) => some ⟨digest, c⟩
  | moved => none
  | _ => memo

/-- A call returns the check in the slot if that counts, and else a new one.  Identities that are
handed out meanwhile lie between two bounds. -/
def Fits (start stop : Nat) (memo : Option Memo) : SlotEvent → Prop
  | call force digest (.ok c) =>
    force = false ∧ memo = some ⟨digest, c⟩ ∨
      (force = false → ∀ d, memo ≠ some ⟨digest, d⟩) ∧ start ≤ c.id ∧ c.id < stop
  | _ => True

/-- A check that was made with a digest leaves the slot. -/
def Displaces (digest : String) : SlotEvent → Prop
  | call false digest' (.ok _) => digest' ≠ digest
  | moved => True
  | _ => False

variable {start stop : Nat} {memo : Option Memo} {e : SlotEvent} {digest : String} {c : Check}

theorem clears_or_fills (e : SlotEvent) : e = moved ∨ (∃ digest c, e = call false digest (.ok c)) ∨
    (∀ memo, e.after memo = memo) ∧ ∀ digest, ¬ e.Displaces digest := by
  rcases e with ⟨_ | _, digest, _ | c⟩ | _
  · exact .inr (.inr ⟨fun _ => rfl, fun _ => id⟩)
  · exact .inr (.inl ⟨digest, c, rfl⟩)
  · exact .inr (.inr ⟨fun _ => rfl, fun _ => id⟩)
  · exact .inr (.inr ⟨fun _ => rfl, fun _ => id⟩)
  · exact .inl rfl

theorem Fits.dated {force : Bool} (h : (call force digest (.ok c)).Fits start stop memo)
    (hmemo : Dated start memo) (hle : start ≤ stop) : c.id < stop := by
  rcases h with ⟨-, hkept⟩ | ⟨-, -, hid⟩
  · exact Nat.lt_of_lt_of_le (hmemo _ hkept) hle
  · exact hid

theorem dated_after (h : e.Fits start stop memo) (hmemo : Dated start memo) (hle : start ≤ stop) :
    Dated stop (e.after memo) := by
  rcases e.clears_or_fills with rfl | ⟨digest, c, rfl⟩ | ⟨hsame, -⟩
  · exact nofun
  · intro m hm
    cases hm
    exact h.dated hmemo hle
  · rw [hsame]
    exact hmemo.of_le hle

/-- An event that does not displace a check leaves it in the slot. -/
theorem after_of_not_displaces (h : e.Fits start stop (some ⟨digest, c⟩))
    (he : ¬ e.Displaces digest) : e.after (some ⟨digest, c⟩) = some ⟨digest, c⟩ := by
  rcases e.clears_or_fills with rfl | ⟨digest', d, rfl⟩ | ⟨hsame, -⟩
  · exact absurd trivial he
  · cases Decidable.not_not.mp he
    rcases h with ⟨-, hkept⟩ | ⟨hstale, -⟩
    · exact hkept.symm
    · exact absurd rfl (hstale rfl c)
  · exact hsame _

/-- A check that is not in the slot is not there after an event either. -/
theorem ne_after {id : Nat} (hreturn : ∀ force digest d, e = call force digest (.ok d) → d.id ≠ id)
    (hgone : ∀ m, memo = some m → m.check.id ≠ id) {m : Memo} (hm : e.after memo = some m) :
    m.check.id ≠ id := by
  rcases e.clears_or_fills with rfl | ⟨digest, d, rfl⟩ | ⟨hsame, -⟩
  · cases hm
  · cases hm
    exact hreturn false digest d rfl
  · rw [hsame] at hm
    exact hgone m hm

/-- After an event that displaces a check there is another one in the slot or none. -/
theorem ne_of_displaces (h : e.Fits start stop (some ⟨digest, c⟩)) (he : e.Displaces digest)
    (hc : c.id < start) {m : Memo} (hm : e.after (some ⟨digest, c⟩) = some m) :
    m.check.id ≠ c.id := by
  rcases e.clears_or_fills with rfl | ⟨digest', d, rfl⟩ | ⟨-, hstays⟩
  · cases hm
  · cases hm
    rcases h with ⟨-, hkept⟩ | ⟨-, hid, -⟩
    · cases hkept
      exact absurd rfl he
    · exact Nat.ne_of_gt (Nat.lt_of_lt_of_le hc hid)
  · exact absurd he (hstays digest)

end SlotEvent

/-! ## Events in order -/

open SlotEvent

/-- A slot takes part in events one after the other.  In between, identities are handed out
elsewhere. -/
inductive Orderly : Nat → Option Memo → List SlotEvent → Prop
  | nil {fresh : Nat} {memo : Option Memo} : Orderly fresh memo []
  | cons {fresh start stop : Nat} {memo : Option Memo} {e : SlotEvent} {es : List SlotEvent}
      (hstart : fresh ≤ start) (hle : start ≤ stop) (hfits : e.Fits start stop memo)
      (hrest : Orderly stop (e.after memo) es) : Orderly fresh memo (e :: es)

namespace Orderly

variable {fresh id : Nat} {memo : Option Memo} {e : SlotEvent} {pre mid post es : List SlotEvent}
  {digest digest' : String} {c c' : Check}

theorem of_le {fresh' : Nat} (hle : fresh' ≤ fresh) (h : Orderly fresh memo es) :
    Orderly fresh' memo es := by
  cases h with
  | nil => exact .nil
  | cons hstart hstop hfits hrest => exact .cons (Nat.le_trans hle hstart) hstop hfits hrest

/-- A check that is not in the slot does not come into it again. -/
theorem ne_of_mem (h : Orderly fresh memo es) (hid : id < fresh)
    (hgone : ∀ m, memo = some m → m.check.id ≠ id) {force : Bool}
    (hmem : call force digest (.ok c) ∈ es) : c.id ≠ id := by
  induction h with
  | nil => cases hmem
  | @cons fresh start stop memo e es hstart hle hfits hrest ih =>
    have hreturn : ∀ {force digest c}, (call force digest (.ok c)).Fits start stop memo →
        c.id ≠ id := by
      rintro force digest c (⟨-, hkept⟩ | ⟨-, hnew, -⟩)
      · exact hgone _ hkept
      · exact Nat.ne_of_gt (Nat.lt_of_lt_of_le hid (Nat.le_trans hstart hnew))
    rcases List.mem_cons.mp hmem with rfl | hmem
    · exact hreturn hfits
    · refine ih (Nat.lt_of_lt_of_le hid (Nat.le_trans hstart hle)) (fun m hm => ?_) hmem
      refine ne_after (fun force digest d he => ?_) hgone hm
      subst he
      exact hreturn hfits

/-- A check that is in the slot is returned again exactly if the digest is the same and nothing has
displaced it. -/
theorem returns_again (hc : c.id < fresh)
    (h : Orderly fresh (some ⟨digest, c⟩) (mid ++ call false digest' (.ok c') :: post)) :
    [c = c', c.id = c'.id, digest = digest' ∧ ∀ e ∈ mid, ¬ e.Displaces digest].TFAE := by
  suffices hreturn : (c.id = c'.id → digest = digest' ∧ ∀ e ∈ mid, ¬ e.Displaces digest) ∧
      ((digest = digest' ∧ ∀ e ∈ mid, ¬ e.Displaces digest) → c = c') by
    tfae_have 1 → 2 := congrArg Check.id
    tfae_have 2 → 3 := hreturn.1
    tfae_have 3 → 1 := hreturn.2
    tfae_finish
  induction mid generalizing fresh with
  | nil =>
    rw [List.nil_append] at h
    cases h with
    | cons hstart _ hfits _ =>
      rcases hfits with ⟨-, hkept⟩ | ⟨hstale, hnew, -⟩
      · cases hkept
        exact ⟨fun _ => ⟨rfl, List.forall_mem_nil _⟩, fun _ => rfl⟩
      · constructor
        · intro hid
          omega
        · rintro ⟨rfl, -⟩
          exact absurd rfl (hstale rfl c)
  | cons e mid ih =>
    rw [List.cons_append] at h
    cases h with
    | cons hstart hle hfits hrest =>
      by_cases he : e.Displaces digest
      · have hgone := ne_of_mem hrest (by omega)
          (fun m hm => ne_of_displaces hfits he (by omega) hm) List.mem_append_cons_self
        exact ⟨fun hid => absurd hid.symm hgone,
          fun hall => absurd he (hall.2 e List.mem_cons_self)⟩
      · rw [after_of_not_displaces hfits he] at hrest
        simp only [List.forall_mem_cons, he, not_false_eq_true, true_and]
        exact ih (by omega) hrest

/-- Two calls return the same check exactly if the digest is the same and nothing in between has
displaced the check. -/
theorem returns_same (hmemo : Dated fresh memo)
    (h : Orderly fresh memo
      (pre ++ call false digest (.ok c) :: (mid ++ call false digest' (.ok c') :: post))) :
    [c = c', c.id = c'.id, digest = digest' ∧ ∀ e ∈ mid, ¬ e.Displaces digest].TFAE := by
  induction pre generalizing fresh memo with
  | nil =>
    rw [List.nil_append] at h
    cases h with
    | cons hstart hle hfits hrest =>
      exact returns_again (hfits.dated (hmemo.of_le hstart) hle) hrest
  | cons e pre ih =>
    rw [List.cons_append] at h
    cases h with
    | cons hstart hle hfits hrest =>
      exact ih (dated_after hfits (hmemo.of_le hstart) hle) hrest

end Orderly

end Verdict
