import Verdict.Proofs.Json.Form
import Verdict.Proofs.Operator.Equality
import Verdict.Step.Pipeline

/-!
# Tables under integers

A table is searched for the text of a value, and the text of a number is that of its double.  So
integers are looked up under their own decimal digits as long as they are doubles themselves; larger
ones share a key with every integer that is rounded to the same double.
-/

namespace Verdict

open Decimal

namespace Json

theorem ofInt_ne_neg_zero {n : Int} (hlt : n.natAbs < 2 ^ 64) : Float.ofInt n ≠ -0 := by
  intro hzero
  by_cases hne : n = 0
  · subst hne
    exact absurd hzero (by decide)
  · have hm := mantissa_ofInt hne hlt
    rw [hzero] at hm
    exact hm (by decide)

theorem equal_ofInt_iff {j k : Int} (hj : j.natAbs < 2 ^ 64) (hk : k.natAbs < 2 ^ 64) :
    (ofInt j).equal (ofInt k) = true ↔ Float.ofInt j = Float.ofInt k := by
  change (Float.ofInt j == Float.ofInt k) = true ↔ _
  rw [Float.beq_iff_ne_nan_and_eq]
  constructor
  · rintro ⟨-, -, heq | ⟨-, hzero⟩ | ⟨hzero, -⟩⟩
    · exact heq
    · exact absurd hzero (ofInt_ne_neg_zero hk)
    · exact absurd hzero (ofInt_ne_neg_zero hj)
  · intro heq
    exact ⟨Number.toFloat_ne_nan (.int j), Number.toFloat_ne_nan (.int k), .inl heq⟩

theorem form_eq_iff_equal {j k : Int} (hj : j.natAbs < 2 ^ 64) (hk : k.natAbs < 2 ^ 64) :
    (ofInt j).form = (ofInt k).form ↔ (ofInt j).equal (ofInt k) = true := by
  rw [equal_ofInt_iff hj hk, form_ofInt hj, form_ofInt hk]
  exact ⟨plainText_injective, congrArg plainText⟩

end Json

namespace Action

open Json

variable {j k : Int}

theorem apply_table (kind : Kind) (locale : String) (tool : Tool)
    (entries : List (String × Json)) (v : Json) :
    (table entries).apply kind locale tool v = (Members.value? v.form entries).getD null := by
  cases tool <;> rfl

/-- A table gives an integer of 64 bits the entry under the plain text of its double, and null if
there is none.  Up to 53 bits that text is the integer's own, and two integers have one key exactly
if they are equal. -/
theorem table_of_integer (kind : Kind) (locale : String) (tool : Tool)
    (entries : List (String × Json)) (hj : j.natAbs < 2 ^ 64) (hk : k.natAbs < 2 ^ 64) :
    (table entries).apply kind locale tool (ofInt k) =
        (Members.value? (plainText (Float.ofInt k)) entries).getD .null ∧
      (k.natAbs ≤ 2 ^ 53 → plainText (Float.ofInt k) = toString k) ∧
      (plainText (Float.ofInt j) = plainText (Float.ofInt k) ↔
        Operator.equal.compare (ofInt j) (ofInt k) = .ok true) := by
  refine ⟨?_, plainText_ofInt, ?_⟩
  · rw [apply_table, form_ofInt hk]
  · rw [← form_ofInt hj, ← form_ofInt hk, form_eq_iff_equal hj hk, Operator.compare_equal_iff]

theorem table_of_integer_rounded :
    (2 ^ 60 : Int).natAbs < 2 ^ 64 ∧
      (table [("1152921504606847000", str "gold")]).apply .primitive "en" .none (ofInt (2 ^ 60)) =
        str "gold" := by
  have h : (2 ^ 60 : Int).natAbs < 2 ^ 64 := by decide
  refine ⟨h, ?_⟩
  rw [(table_of_integer .primitive "en" .none _ h h).1,
    show plainText (Float.ofInt (2 ^ 60)) = "1152921504606847000" by decide]
  rfl

/-- The least positive integer that is no double gets the entry of its neighbour instead of its
own. -/
theorem entry_of_neighbour :
    let entries := [("9007199254740992", str "other"), ("9007199254740993", str "mine")]
    (table entries).apply .primitive "en" .none (ofInt 9007199254740993) = str "other" ∧
      (table entries).apply .primitive "en" .none (ofInt 9007199254740992) = str "other" ∧
      Members.value? (toString (9007199254740993 : Int)) entries = some (str "mine") := by
  have hkey : (ofInt 9007199254740993).form = "9007199254740992" := by decide
  have hkey' : (ofInt 9007199254740992).form = "9007199254740992" := by decide
  refine ⟨?_, ?_, rfl⟩
  · rw [apply_table, hkey]
    rfl
  · rw [apply_table, hkey']
    rfl

end Action

end Verdict
