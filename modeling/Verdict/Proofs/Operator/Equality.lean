import Verdict.Proofs.Operator.Symmetry

/-!
# Equality from the outside in

Numbers are equal as doubles where they are compared directly, but inside lists and objects their
spelling counts.  Where no two spellings of a number meet inside the values, equality goes down the
values as they are built, and a number may be respelled.
-/

namespace Verdict

namespace Json

variable {a a' b v w : Json} {as bs : List Json} {ms ns : List (String × Json)}

def typeName : Json → String
  | null => "null"
  | bool _ => "boolean"
  | num _ => "number"
  | str _ => "string"
  | arr _ => "array"
  | obj _ => "object"

theorem typeName_of_equal (h : a.equal b = true) : a.typeName = b.typeName := by
  cases a <;> cases b <;> first | rfl | cases h

theorem equal_iff_agrees (h : a.Untwinned b) : a.equal b = true ↔ a.agrees b = true :=
  equal_iff.trans (and_iff_left h)

theorem equal_iff_children (h : a.Untwinned b) :
    a.equal b = true ↔ a.topBy Number.agrees b = true ∧
      List.Forall₂ (fun v w => v.equal w = true) (Path.children a) (Path.children b) := by
  rw [equal_iff_agrees h, agrees, sameBy_iff_children, forall₂_iff_getElem?, forall₂_iff_getElem?]
  refine and_congr_right fun _ => forall_congr' fun i => rel_congr fun v w hv hw => ?_
  exact (equal_iff_agrees (h.child hv hw)).symm

theorem equal_arr_iff (h : (arr as).Untwinned (arr bs)) :
    (arr as).equal (arr bs) = true ↔ List.Forall₂ (fun v w => v.equal w = true) as bs :=
  (equal_iff_children h).trans (and_iff_right rfl)

theorem equal_obj_iff (hms : Members.Sorted ms) (hns : Members.Sorted ns)
    (h : (obj ms).Untwinned (obj ns)) :
    (obj ms).equal (obj ns) = true ↔
      ∀ name, Option.Rel (fun v w => v.equal w = true) (Members.value? name ms)
        (Members.value? name ns) := by
  rw [equal_iff_children h, ← Members.forall₂_iff_value? hms hns]
  exact and_congr_left fun _ => beq_iff_eq

/-! ## Respelling -/

theorem equal_respelled (h : a.agrees a' = true) (hab : a.Untwinned b) (ha'b : a'.Untwinned b) :
    a.equal b = a'.equal b := by
  rw [Bool.eq_iff_iff, equal_iff_agrees hab, equal_iff_agrees ha'b]
  constructor
  · exact agrees_trans (agrees_comm a a' ▸ h)
  · exact agrees_trans h

theorem forall₂_elements (h : a.agrees a' = true) :
    List.Forall₂ (fun v w => v.agrees w = true) a.elements a'.elements := by
  cases a <;> cases a' <;>
    first
    | exact .nil
    | exact .cons h .nil
    | exact (sameBy_iff_children.mp h).2
    | cases h

/-- No element of the one value meets another spelling of a number inside an element of the
other. -/
def UntwinnedElements (a b : Json) : Prop :=
  ∀ v ∈ a.elements, ∀ w ∈ b.elements, v.Untwinned w

theorem any_eq_of_forall₂ {α β : Type} {R : α → β → Prop} {p : α → Bool} {q : β → Bool}
    {xs : List α} {ys : List β} (h : List.Forall₂ R xs ys)
    (hpq : ∀ x ∈ xs, ∀ y ∈ ys, R x y → p x = q y) : xs.any p = ys.any q := by
  induction h with
  | nil => rfl
  | cons hxy _ ih =>
    rw [List.any_cons, List.any_cons, hpq _ List.mem_cons_self _ List.mem_cons_self hxy,
      ih fun x hx y hy => hpq x (List.mem_cons_of_mem _ hx) y (List.mem_cons_of_mem _ hy)]

theorem share_respelled (h : a.agrees a' = true) (hab : a.UntwinnedElements b)
    (ha'b : a'.UntwinnedElements b) :
    (a.elements.any fun v => b.elements.any fun w => v.equal w) =
      a'.elements.any fun v => b.elements.any fun w => v.equal w := by
  apply any_eq_of_forall₂ (forall₂_elements h)
  intro v hv v' hv' hagrees
  rw [Bool.eq_iff_iff, List.any_eq_true, List.any_eq_true]
  refine exists_congr fun w => and_congr_right fun hw => ?_
  rw [equal_respelled hagrees (hab v hv w hw) (ha'b v' hv' w hw)]

end Json

namespace Operator

open Json

variable {a b c d : Json} {op : Operator}

theorem compare_equal_iff : equal.compare a b = .ok true ↔ a.equal b = true := by
  rw [compare, Except.ok.injEq]

theorem compare_eq_of_equal (hop : op ∈ [equal, notEqual]) (h : a.equal b = c.equal d) :
    op.compare a b = op.compare c d := by
  rcases List.mem_pair.mp hop with rfl | rfl
  · exact congrArg Except.ok h
  · exact congrArg (Except.ok ∘ not) h

theorem compare_eq_of_share (hop : op ∈ [includes, notIncludes])
    (h : (a.elements.any fun v => b.elements.any fun w => v.equal w) =
      c.elements.any fun v => d.elements.any fun w => v.equal w) :
    op.compare a b = op.compare c d := by
  rcases List.mem_pair.mp hop with rfl | rfl
  · exact congrArg Except.ok h
  · exact congrArg (Except.ok ∘ not) h

/-- Equality is decided by what the numbers denote unless two spellings of one number meet inside
the values.  Where none meet, lists are compared element by element, objects name by name, and
numbers may be spelled in either way. -/
theorem equal_structural (a b : Json) :
    (equal.compare a b = .ok true ↔ a.agrees b = true ∧ a.Untwinned b) ∧
    (equal.compare a b = .ok true → a.typeName = b.typeName) ∧
    (∀ m n, a = num m → b = num n → equal.compare a b = .ok (m.toFloat == n.toFloat)) ∧
    (∀ as bs, a = arr as → b = arr bs → a.Untwinned b →
      (equal.compare a b = .ok true ↔
        List.Forall₂ (fun v w => equal.compare v w = .ok true) as bs)) ∧
    (∀ ms ns, a = obj ms → b = obj ns → Members.Sorted ms → Members.Sorted ns → a.Untwinned b →
      (equal.compare a b = .ok true ↔
        ∀ name, Option.Rel (fun v w => equal.compare v w = .ok true)
          (Members.value? name ms) (Members.value? name ns))) ∧
    (∀ a', a.agrees a' = true → a.Untwinned b → a'.Untwinned b →
      ∀ op ∈ [equal, notEqual],
        op.compare a b = op.compare a' b ∧ op.compare b a = op.compare b a') ∧
    ∀ a', a.agrees a' = true → a.UntwinnedElements b → a'.UntwinnedElements b →
      ∀ op ∈ [includes, notIncludes],
        op.compare a b = op.compare a' b ∧ op.compare b a = op.compare b a' := by
  simp only [compare_equal_iff]
  refine ⟨equal_iff, typeName_of_equal, ?_, ?_, ?_, ?_, ?_⟩
  · rintro m n rfl rfl
    rfl
  · rintro as bs rfl rfl
    exact equal_arr_iff
  · rintro ms ns rfl rfl
    exact equal_obj_iff
  · intro a' h hab ha'b op hop
    have heq := equal_respelled h hab ha'b
    refine ⟨compare_eq_of_equal hop heq, compare_eq_of_equal hop ?_⟩
    rw [equal_comm b a, heq, equal_comm]
  · intro a' h hab ha'b op hop
    have hshare := share_respelled h hab ha'b
    refine ⟨compare_eq_of_share hop hshare, compare_eq_of_share hop ?_⟩
    rw [share_comm b a, hshare, share_comm]

theorem isFinite_two : (2 : Float).isFinite = true := by
  decide

theorem equal_structural_of_two :
    (arr [ofInt 2]).agrees (arr [num (.float 2 isFinite_two)]) = true ∧
      (∀ n, (arr [num n]).Untwinned (arr [str "2"])) ∧
      equal.compare (arr [ofInt 2]) (arr [str "2"]) =
        equal.compare (arr [num (.float 2 isFinite_two)]) (arr [str "2"]) := by
  have hagrees : (arr [ofInt 2]).agrees (arr [num (.float 2 isFinite_two)]) = true := by
    decide
  have huntwinned (n : Number) : (arr [num n]).Untwinned (arr [str "2"]) := by
    intro place k l _ _ htext
    rcases place with _ | ⟨_ | i, _ | ⟨j, place⟩⟩ <;> cases htext
  obtain ⟨-, -, -, -, -, hrespelled, -⟩ := equal_structural (arr [ofInt 2]) (arr [str "2"])
  exact ⟨hagrees, huntwinned,
    (hrespelled _ hagrees (huntwinned _) (huntwinned _) equal (List.mem_cons_self)).1⟩

/-- Inside lists an integer is not equal to the double that it is equal to outside them. -/
theorem two_in_list_not_equal :
    equal.compare (ofInt 2) (num (.float 2 isFinite_two)) = .ok true ∧
      equal.compare (arr [ofInt 2]) (arr [num (.float 2 isFinite_two)]) = .ok false ∧
      equal.compare (arr [ofInt 2]) (arr [ofInt 2]) = .ok true := by
  refine ⟨?_, ?_, ?_⟩ <;> decide

end Operator

end Verdict
