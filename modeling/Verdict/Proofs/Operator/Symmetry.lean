import Verdict.Proofs.Json.Equality
import Verdict.Proofs.Json.Order
import Verdict.Rule.Comparison

/-!
# Operators with their operands swapped

Equality, likeness and a common element do not depend on which operand comes first.  The order of
two values is turned round when they are swapped, so less and greater stand for each other, and of
two values at most one of them holds.
-/

namespace Verdict

namespace Json

theorem both_equal_comm (x y : Option Float) :
    (match x, y with
      | some x, some y => x == y
      | _, _ => false) =
    match y, x with
      | some y, some x => y == x
      | _, _ => false := by
  cases x <;> cases y <;> first | rfl | exact BEq.comm

theorem alike_comm (a b : Json) : a.alike b = b.alike a := by
  apply congrArg₂ or (equal_comm a b)
  -- the mirror image of a pair of kinds comes to the same comparison: of two numbers, of two values
  -- forced to numbers, or of the text of a list or an object, which is taken first on either side
  cases a <;> cases b <;>
    first | rfl | exact equal_comm _ _ | exact both_equal_comm _ _

/-- Loose equality opened once.  The cases stand in their order: a truth value becomes a number
before a list or an object becomes text, and a null is like nothing else. -/
def alikeOpened (a b : Json) : Bool :=
  a.equal b ||
    match a, b with
    | null, _ | _, null => false
    | num _, str _ | str _, num _ =>
      match a.forcedNumber?, b.forcedNumber? with
      | some x, some y => x == y
      | _, _ => false
    | bool p, b => (ofInt (if p then 1 else 0)).alike b
    | a, bool q => a.alike (ofInt (if q then 1 else 0))
    | arr _, str _ | arr _, num _ | obj _, str _ | obj _, num _ => (str a.form).alike b
    | str _, arr _ | num _, arr _ | str _, obj _ | num _, obj _ => a.alike (str b.form)
    | _, _ => false

theorem alike_eq_opened (a b : Json) : a.alike b = a.alikeOpened b := by
  -- what is left after unfolding: numbers are compared once more on the right, texts stand the
  -- other way round or before a `false`
  cases a <;> cases b <;>
    first
    | rfl
    | exact (Bool.or_self _).symm
    | exact (Bool.or_self _).trans (Bool.or_false _).symm
    | exact (Bool.or_false _).symm
    | exact both_equal_comm _ _
    | exact (Bool.beq_comm).trans (Bool.or_false _).symm

end Json

namespace Operator

theorem any_any_comm {α β : Type} (p : α → β → Bool) (xs : List α) (ys : List β) :
    (xs.any fun x => ys.any fun y => p x y) = ys.any fun y => xs.any fun x => p x y := by
  rw [Bool.eq_iff_iff]
  simp only [List.any_eq_true]
  exact ⟨fun ⟨x, hx, y, hy, h⟩ => ⟨y, hy, x, hx, h⟩, fun ⟨y, hy, x, hx, h⟩ => ⟨x, hx, y, hy, h⟩⟩

theorem share_comm (a b : Json) :
    (a.elements.any fun x => b.elements.any fun y => x.equal y) =
      b.elements.any fun y => a.elements.any fun x => y.equal x := by
  rw [any_any_comm]
  simp only [Json.equal_comm]

theorem compare_swapped (a b : Json) :
    (∀ op ∈ [equal, notEqual, like, notLike, includes, notIncludes],
      op.compare a b = op.compare b a) ∧
    less.compare a b = greater.compare b a ∧
    ¬(less.compare a b = .ok true ∧ greater.compare a b = .ok true) := by
  refine ⟨?_, ?_, ?_⟩
  · simp only [List.forall_mem_cons]
    refine ⟨?_, ?_, ?_, ?_, ?_, ?_, nofun⟩
    · exact congrArg Except.ok (Json.equal_comm a b)
    · exact congrArg (Except.ok ∘ not) (Json.equal_comm a b)
    · exact congrArg Except.ok (Json.alike_comm a b)
    · exact congrArg (Except.ok ∘ not) (Json.alike_comm a b)
    · exact congrArg Except.ok (share_comm a b)
    · exact congrArg (Except.ok ∘ not) (share_comm a b)
  · apply congrArg Except.ok
    rw [Bool.eq_iff_iff, beq_iff_eq, beq_iff_eq, Json.order_eq_lt_iff_gt]
  · rintro ⟨hless, hgreater⟩
    have hlt : a.order b = .lt := eq_of_beq (Except.ok.inj hless)
    have hgt : a.order b = .gt := eq_of_beq (Except.ok.inj hgreater)
    rw [hlt] at hgt
    contradiction

end Operator

end Verdict
