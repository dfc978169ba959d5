import Verdict.Json.Order
import Verdict.Proofs.Decimal.Comparison

/-!
# The order of values

Two values that both count as numbers are ordered by size, all others by their text.  Either order
is asymmetric, so it is turned round when the values are swapped.
-/

namespace Verdict.Json

variable {a b : Json} {x y : Float}

theorem order_of_numbers (hx : a.number? = some x) (hy : b.number? = some y) :
    a.order b = if x < y then .lt else if y < x then .gt else .eq := by
  rw [order, hx, hy]
  rfl

theorem order_of_texts (h : a.number? = none ∨ b.number? = none) :
    a.order b = if a.form < b.form then .lt else if b.form < a.form then .gt else .eq := by
  rw [order]
  rcases h with ha | hb
  · rw [ha]
    rfl
  · rw [hb]
    cases a.number? <;> rfl

section Asymmetric

variable {α : Type} [LT α] [DecidableLT α] {p q : α}

theorem ite_eq_lt_iff :
    (if p < q then Ordering.lt else if q < p then .gt else .eq) = .lt ↔ p < q := by
  split_ifs <;> simp_all

theorem ite_eq_gt_iff (hasymm : p < q → ¬q < p) :
    (if p < q then Ordering.lt else if q < p then .gt else .eq) = .gt ↔ q < p := by
  split_ifs with hpq hqp
  · exact ⟨nofun, fun hqp => absurd hqp (hasymm hpq)⟩
  · exact ⟨fun _ => hqp, fun _ => rfl⟩
  · exact ⟨nofun, fun h => absurd h hqp⟩

end Asymmetric

theorem order_eq_lt_iff_of_numbers (hx : a.number? = some x) (hy : b.number? = some y) :
    a.order b = .lt ↔ x < y := by
  rw [order_of_numbers hx hy, ite_eq_lt_iff]

theorem order_eq_gt_iff_of_numbers (hx : a.number? = some x) (hy : b.number? = some y) :
    a.order b = .gt ↔ y < x := by
  rw [order_of_numbers hx hy, ite_eq_gt_iff Decimal.lt_asymm]

theorem order_eq_lt_iff_of_texts (h : a.number? = none ∨ b.number? = none) :
    a.order b = .lt ↔ a.form < b.form := by
  rw [order_of_texts h, ite_eq_lt_iff]

theorem order_eq_gt_iff_of_texts (h : a.number? = none ∨ b.number? = none) :
    a.order b = .gt ↔ b.form < a.form := by
  rw [order_of_texts h, ite_eq_gt_iff String.lt_asymm]

theorem order_eq_lt_iff_gt (a b : Json) : a.order b = .lt ↔ b.order a = .gt := by
  by_cases h : a.number? = none ∨ b.number? = none
  · rw [order_eq_lt_iff_of_texts h, order_eq_gt_iff_of_texts h.symm]
  · rw [not_or, ← ne_eq, ← ne_eq, Option.ne_none_iff_exists', Option.ne_none_iff_exists'] at h
    obtain ⟨⟨x, hx⟩, y, hy⟩ := h
    rw [order_eq_lt_iff_of_numbers hx hy, order_eq_gt_iff_of_numbers hy hx]

end Verdict.Json
