import Mathlib

/-!
# The order of doubles

Unpacked, a double is a sign, a mantissa and an exponent, and comparing doubles compares these.  The
comparison is turned round when the doubles are swapped, so of two doubles at most one is less than
the other.
-/

namespace Verdict.Decimal

open Float.Model (UnpackedFloat)

/-- Positive numbers are compared by their exponents, then by their mantissas. -/
theorem swap_sizes (m n : Nat) (e f : Int) :
    ((compare e f).then (compare m n)).swap = (compare f e).then (compare n m) := by
  rw [Ordering.swap_then, ← Std.OrientedCmp.eq_swap, ← Std.OrientedCmp.eq_swap]

theorem swap_compare (u v : UnpackedFloat) : (u.compare v).map Ordering.swap = v.compare u := by
  rcases u with s | _ | s | ⟨s, m, e, hm⟩ <;> rcases v with t | _ | t | ⟨t, n, f, hn⟩ <;>
    (try cases s) <;> (try cases t) <;> try rfl
  · exact congrArg (some ∘ Ordering.swap) (swap_sizes m n e f)
  · exact congrArg some (swap_sizes m n e f)

theorem lt_iff {x y : Float} :
    x < y ↔ x.toModel.unpack.compare y.toModel.unpack = some .lt := by
  change decide (Float.Model.lt _ _ = true) = true ↔ _
  rw [decide_eq_true_iff]
  exact beq_iff_eq

theorem lt_asymm {x y : Float} (h : x < y) : ¬y < x := by
  rw [lt_iff] at h
  rw [lt_iff, ← swap_compare, h]
  exact nofun

end Verdict.Decimal
