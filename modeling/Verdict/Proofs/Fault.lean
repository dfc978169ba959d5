import Mathlib.Data.List.Forall2
import Verdict.Fault

/-!
# Values or faults

When sequences of work that may fail come to a value and when to a fault.
-/

namespace Verdict

/-- One check after the other passes if both do. -/
theorem andThen_eq_ok_iff {x y : Except Fault Unit} :
    (do x; y) = .ok () ↔ x = .ok () ∧ y = .ok () := by
  cases x with
  | error f => exact ⟨nofun, nofun⟩
  | ok _ => exact ⟨fun h => ⟨rfl, h⟩, fun h => h.2⟩

variable {α β : Type} {x : Except Fault α} {f : Fault}

theorem exists_of_isOk (h : x.isOk = true) : ∃ a, x = .ok a := by
  cases x with
  | error e => cases h
  | ok a => exact ⟨a, rfl⟩

theorem toOption_eq_some_iff {a : α} : x.toOption = some a ↔ x = .ok a := by
  cases x with
  | error e => exact ⟨nofun, nofun⟩
  | ok b => exact ⟨fun h => congrArg Except.ok (Option.some.inj h), fun h => by cases h; rfl⟩

theorem mapError_eq_ok_iff (g : Fault → Fault) (a : α) : x.mapError g = .ok a ↔ x = .ok a := by
  cases x with
  | error e => exact ⟨nofun, nofun⟩
  | ok b => exact Iff.rfl

/-! ## One after the other -/

section Map

variable {k : α → β}

theorem map_isOk_iff (k : α → β) : (∃ b, x.map k = .ok b) ↔ ∃ a, x = .ok a := by
  cases x with
  | error e => exact ⟨nofun, nofun⟩
  | ok a => exact ⟨fun _ => ⟨a, rfl⟩, fun _ => ⟨k a, rfl⟩⟩

theorem forget_eq_ok_iff : (x.map fun _ => ()) = .ok () ↔ ∃ a, x = .ok a :=
  ⟨fun h => (map_isOk_iff _).mp ⟨(), h⟩, fun ⟨a, h⟩ => by rw [h]; rfl⟩

theorem map_eq_ok {ε : Type} {x : Except ε α} {b : β} (h : x.map k = .ok b) :
    ∃ a, x = .ok a ∧ k a = b := by
  cases x with
  | error e => cases h
  | ok a => exact ⟨a, rfl, Except.ok.inj h⟩

theorem map_eq_error_iff : x.map k = .error f ↔ x = .error f := by
  cases x with
  | error e => exact ⟨fun h => by cases h; rfl, fun h => by cases h; rfl⟩
  | ok a => exact ⟨nofun, nofun⟩

end Map

section Bind

variable {k : α → Except Fault β}

theorem bind_eq_ok {b : β} (h : x >>= k = .ok b) : ∃ a, x = .ok a ∧ k a = .ok b := by
  cases x with
  | error e => cases h
  | ok a => exact ⟨a, rfl, h⟩

theorem bind_eq_error (h : x >>= k = .error f) :
    x = .error f ∨ ∃ a, x = .ok a ∧ k a = .error f := by
  cases x with
  | error e =>
    cases h
    exact .inl rfl
  | ok a => exact .inr ⟨a, rfl, h⟩

/-! ## Lists -/

variable {as : List α}

theorem forall₂_of_mapM {bs : List β} (h : as.mapM k = .ok bs) :
    List.Forall₂ (fun a b => k a = .ok b) as bs := by
  induction as generalizing bs with
  | nil =>
    cases h
    exact .nil
  | cons a as ih =>
    rw [List.mapM_cons] at h
    obtain ⟨b, hb, h⟩ := bind_eq_ok h
    obtain ⟨rest, hrest, h⟩ := bind_eq_ok h
    cases h
    exact .cons hb (ih hrest)

theorem exists_of_mapM {bs : List β} (h : as.mapM k = .ok bs) {b : β} (hb : b ∈ bs) :
    ∃ a ∈ as, k a = .ok b := by
  obtain ⟨i, hi, rfl⟩ := List.getElem_of_mem hb
  have hall := forall₂_of_mapM h
  exact ⟨_, List.getElem_mem (hall.length_eq ▸ hi), hall.get (hall.length_eq ▸ hi) hi⟩

theorem mapM_eq_error (h : as.mapM k = .error f) : ∃ a ∈ as, k a = .error f := by
  induction as with
  | nil => cases h
  | cons a as ih =>
    rw [List.mapM_cons] at h
    rcases bind_eq_error h with ha | ⟨b, -, h⟩
    · exact ⟨a, .head _, ha⟩
    · rcases bind_eq_error h with has | ⟨bs, -, h⟩
      · obtain ⟨a', ha', hf⟩ := ih has
        exact ⟨a', .tail _ ha', hf⟩
      · cases h

end Bind

/-! ## Outcomes seen through a function -/

section View

variable {γ δ : Type} {g : α → γ} {h : β → δ}

/-- Work that looks the same up to some point and goes on alike from there looks the same. -/
theorem map_bind_congr {x' : Except Fault α} {k k' : α → Except Fault β} (hx : x.map g = x'.map g)
    (hk : ∀ a a', g a = g a' → (k a).map h = (k' a').map h) :
    (x >>= k).map h = (x' >>= k').map h := by
  cases x with
  | error e =>
    cases x' with
    | error e' => exact congrArg Except.error (Except.error.inj hx)
    | ok a' => cases hx
  | ok a =>
    cases x' with
    | error e' => cases hx
    | ok a' => exact hk a a' (Except.ok.inj hx)

theorem map_bind_congr_right (x : Except Fault α) {k k' : α → Except Fault β}
    (hk : ∀ a, (k a).map h = (k' a).map h) : (x >>= k).map h = (x >>= k').map h := by
  cases x with
  | error e => rfl
  | ok a => exact hk a

theorem map_mapM_congr {k k' : α → Except Fault β} (hk : ∀ a, (k a).map h = (k' a).map h)
    (as : List α) : (as.mapM k).map (List.map h) = (as.mapM k').map (List.map h) := by
  induction as with
  | nil => rfl
  | cons a as ih =>
    rw [List.mapM_cons, List.mapM_cons]
    refine map_bind_congr (hk a) fun b b' hb => map_bind_congr ih fun bs bs' hbs => ?_
    change Except.ok (List.map h (b :: bs)) = Except.ok (List.map h (b' :: bs'))
    rw [List.map_cons, List.map_cons, hb, hbs]

end View

end Verdict
