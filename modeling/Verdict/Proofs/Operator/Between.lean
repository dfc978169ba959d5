import Verdict.Rule.Comparison

/-!
# Between and not between

A point is tried against its bounds only if it counts as a number and each bound counts as one too,
or is not there.  Then one of the two operators holds and the other does not.  Without such a point
and such bounds neither holds.
-/

namespace Verdict.Operator

variable {point bounds : Json} {bound : Option Json} {x : Float}

/-- What can stand as a bound: a number, or nothing, and then the values are unbounded. -/
def IsBound (bound : Option Json) : Prop :=
  Json.isAbsent bound = true ∨ (bound.bind Json.number?).isSome = true

/-- The point is a number and the bounds are bounds. -/
structure Tried (point bounds : Json) : Prop where
  point : point.number?.isSome = true
  low : IsBound bounds.elements[0]?
  high : IsBound bounds.elements[1]?

/-- A number lies between the bounds that are there, or on one of them. -/
def Within (x : Float) (bounds : Json) : Prop :=
  (∀ low, bounds.elements[0]?.bind Json.number? = some low → low ≤ x) ∧
    ∀ high, bounds.elements[1]?.bind Json.number? = some high → x ≤ high

def limitOf : Option Json → Option (Option Float)
  | .none => some .none
  | some .null => some .none
  | some v => v.number?.map some

theorem inside?_eq (point bounds : Json) :
    inside? point bounds =
      point.number?.bind fun x =>
        (limitOf bounds.elements[0]?).bind fun low =>
          (limitOf bounds.elements[1]?).bind fun high =>
            some ((low.all fun l => l ≤ x) && high.all fun h => x ≤ h) :=
  rfl

theorem limitOf_of_isBound (h : IsBound bound) :
    limitOf bound = some (bound.bind Json.number?) := by
  cases bound with
  | none => rfl
  | some v =>
    cases v with
    | null => rfl
    | _ =>
      obtain habsent | hnumber := h
      · contradiction
      · obtain ⟨x, hx⟩ := Option.isSome_iff_exists.mp hnumber
        rw [hx]
        exact congrArg (Option.map some) hx

theorem limitOf_of_not_isBound (h : ¬IsBound bound) : limitOf bound = .none := by
  cases bound with
  | none => exact absurd (.inl rfl) h
  | some v =>
    cases v with
    | null => exact absurd (.inl rfl) h
    | _ =>
      obtain ⟨-, hnumber⟩ := not_or.mp h
      exact congrArg (Option.map some) (Option.not_isSome_iff_eq_none.mp hnumber)

theorem inside?_of_tried (h : Tried point bounds) (hx : point.number? = some x) :
    ∃ inside, inside? point bounds = some inside ∧ (inside = true ↔ Within x bounds) := by
  rw [inside?_eq, hx, limitOf_of_isBound h.low, limitOf_of_isBound h.high]
  refine ⟨_, rfl, ?_⟩
  simp [Within, Option.all_eq_true]

theorem inside?_of_not_tried (h : ¬Tried point bounds) : inside? point bounds = .none := by
  rw [inside?_eq]
  cases hx : point.number? with
  | none => rfl
  | some x =>
    by_cases hlow : IsBound bounds.elements[0]?
    · have hhigh : ¬IsBound bounds.elements[1]? :=
        fun hhigh => h ⟨hx ▸ rfl, hlow, hhigh⟩
      rw [limitOf_of_isBound hlow, limitOf_of_not_isBound hhigh]
      rfl
    · rw [limitOf_of_not_isBound hlow]
      rfl

/-- Of a point that is tried exactly one of the operators holds, and of any other neither. -/
theorem notBetween_negates (point bounds : Json) :
    (Tried point bounds → ∃ inside,
      between.compare point bounds = .ok inside ∧
      notBetween.compare point bounds = .ok (!inside) ∧
      (inside = true ↔ ∀ x, point.number? = some x → Within x bounds)) ∧
    (¬Tried point bounds →
      between.compare point bounds = .ok false ∧ notBetween.compare point bounds = .ok false) := by
  constructor
  · intro h
    obtain ⟨x, hx⟩ := Option.isSome_iff_exists.mp h.point
    obtain ⟨inside, hinside, hwithin⟩ := inside?_of_tried h hx
    refine ⟨inside, ?_, ?_, ?_⟩
    · rw [compare, hinside, Option.getD_some]
    · rw [compare, hinside, Option.map_some, Option.getD_some]
    · rw [hwithin, hx]
      simp
  · intro h
    have hinside := inside?_of_not_tried h
    constructor
    · rw [compare, hinside, Option.getD_none]
    · rw [compare, hinside, Option.map_none, Option.getD_none]

theorem notBetween_negates_open :
    Tried (.ofInt 7) (.arr [.null, .ofInt 10]) ∧ ∃ inside,
      between.compare (.ofInt 7) (.arr [.null, .ofInt 10]) = .ok inside ∧
      notBetween.compare (.ofInt 7) (.arr [.null, .ofInt 10]) = .ok (!inside) :=
  have h : Tried (.ofInt 7) (.arr [.null, .ofInt 10]) := ⟨rfl, .inl rfl, .inr rfl⟩
  have ⟨inside, hbetween, hnot, _⟩ := (notBetween_negates _ _).1 h
  ⟨h, inside, hbetween, hnot⟩

/-- A bound of letters leaves a number neither between nor not between. -/
theorem notBetween_of_letters :
    (Json.ofInt 5).number?.isSome = true ∧
      notBetween.compare (.ofInt 5) (.arr [.str "abc", .ofInt 1]) ≠
        (between.compare (.ofInt 5) (.arr [.str "abc", .ofInt 1])).map (!·) := by
  have h : inside? (.ofInt 5) (.arr [.str "abc", .ofInt 1]) = .none := by
    decide
  refine ⟨rfl, ?_⟩
  rw [compare, compare, h]
  nofun

end Verdict.Operator
