import Verdict.Proofs.Json.Form
import Verdict.Proofs.Json.Order
import Verdict.Rule.Comparison

/-!
# Less and greater without numbers

Unless both values count as numbers, less and greater compare their texts, character by character.
The text of a list is not the list as a document: it has no brackets.
-/

namespace Verdict.Operator

open Json

/-- Values of which one is not numeric are ordered by what they spell. -/
theorem order_by_text {a b : Json} (h : ¬(a.IsNumeric ∧ b.IsNumeric)) :
    Spells form ∧
      less.compare a b = .ok (decide (a.form < b.form)) ∧
      greater.compare a b = .ok (decide (b.form < a.form)) := by
  have htexts := (number?_eq_none_or a b).mpr h
  refine ⟨spells_form, ?_, ?_⟩
  · rw [compare, Except.ok.injEq, Bool.eq_iff_iff, beq_iff_eq, decide_eq_true_iff,
      order_eq_lt_iff_of_texts htexts]
  · rw [compare, Except.ok.injEq, Bool.eq_iff_iff, beq_iff_eq, decide_eq_true_iff,
      order_eq_gt_iff_of_texts htexts]

theorem order_by_text_of_list :
    ¬((arr [ofInt 2, null]).IsNumeric ∧ (str "2;").IsNumeric) ∧
      less.compare (arr [ofInt 2, null]) (str "2;") =
        .ok (decide ((arr [ofInt 2, null]).form < "2;")) :=
  have h : ¬((arr [ofInt 2, null]).IsNumeric ∧ (str "2;").IsNumeric) :=
    (number?_eq_none_or _ _).mp (.inl rfl)
  ⟨h, (order_by_text h).2.1⟩

/-- As a document the list would be greater than the text. -/
theorem bracket_not_compared :
    ¬((arr [ofInt 1]).IsNumeric ∧ (str "5").IsNumeric) ∧
      less.compare (arr [ofInt 1]) (str "5") = .ok true ∧ ¬(arr [ofInt 1]).text < "5" := by
  refine ⟨(number?_eq_none_or _ _).mp (.inl rfl), ?_, ?_⟩
  · decide
  · decide

end Verdict.Operator
