import Verdict.Json.Scalar
import Verdict.Proofs.Decimal.Plain

/-!
# Values as numbers and as text

A value counts as a number if it is one or is a text that spells one.  The text of a value is plain:
numbers have no exponent, a list is the texts of its elements between commas, and only objects are
written as documents.
-/

namespace Verdict.Json

open Decimal Text

variable {v : Json}

/-! ## Numbers -/

/-- A number, or a text that spells a finite number between blanks. -/
def IsNumeric (v : Json) : Prop :=
  (∃ n, v = num n) ∨
    ∃ s x, v = str s ∧ trimChars s.toList ≠ [] ∧ readFloat (trimChars s.toList) = some x ∧
      x.isFinite = true

theorem number?_str (s : String) :
    (str s).number? = if (trimChars s.toList).isEmpty then none
      else (readFloat (trimChars s.toList)).filter Float.isFinite :=
  rfl

theorem number?_isSome_iff : v.number?.isSome = true ↔ v.IsNumeric := by
  cases v with
  | num n => exact ⟨fun _ => .inl ⟨n, rfl⟩, fun _ => rfl⟩
  | str s =>
    simp only [number?_str, IsNumeric]
    by_cases hempty : trimChars s.toList = []
    · simp [hempty]
    · simp [hempty, Option.any_eq_true]
  | _ => simp [number?, IsNumeric]

theorem number?_eq_none_or (a b : Json) :
    a.number? = none ∨ b.number? = none ↔ ¬(a.IsNumeric ∧ b.IsNumeric) := by
  rw [← number?_isSome_iff, ← number?_isSome_iff, not_and_or, Option.not_isSome_iff_eq_none,
    Option.not_isSome_iff_eq_none]

/-! ## Text -/

/-- A double that is written as a whole number: it has at most fifteen digits and no fraction. -/
def IsShort (x : Float) : Prop :=
  (Binary.ofFloat x).isWhole = true ∧ (truncate x).natAbs < 10 ^ 15

theorem isShort_iff {x : Float} :
    IsShort x ↔ ((Binary.ofFloat x).isWhole &&
      decide ((Binary.ofFloat x).truncate.natAbs < tenTo 15)) = true := by
  rw [Bool.and_eq_true, decide_eq_true_iff]
  exact Iff.rfl

theorem numberText_of_isShort {x : Float} (hfinite : x.isFinite = true) (h : IsShort x) :
    numberText x = toString (truncate x) := by
  rw [numberText, if_pos hfinite]
  exact if_pos (isShort_iff.mp h)

theorem numberText_of_not_isShort {x : Float} (hfinite : x.isFinite = true) (h : ¬IsShort x) :
    numberText x = plainText x := by
  rw [numberText, if_pos hfinite]
  exact if_neg (mt isShort_iff.mpr h)

theorem numberText_ofInt {n : Int} (h : n.natAbs < 10 ^ 15) :
    numberText (Float.ofInt n) = toString n := by
  have hlt : n.natAbs < 2 ^ 53 := h.trans (by decide)
  obtain ⟨hfinite, hwhole, htruncate⟩ := whole_ofInt hlt
  have htruncate : truncate (Float.ofInt n) = n := htruncate
  rw [numberText_of_isShort hfinite ⟨hwhole, htruncate.symm ▸ h⟩, htruncate]

/-- Plain text is the text of every finite double but the negative zero. -/
theorem numberText_eq_plainText {x : Float} (hfinite : x.isFinite = true)
    (hzero : (Binary.ofFloat x).mantissa = 0 → x = 0) : numberText x = plainText x := by
  by_cases hshort : IsShort x
  · by_cases hm : (Binary.ofFloat x).mantissa = 0
    · rw [hzero hm]
      decide +kernel
    · rw [numberText_of_isShort hfinite hshort,
        plainText_whole hshort.1 (hshort.2.trans (by decide)) hm]
  · exact numberText_of_not_isShort hfinite hshort

theorem form_ofInt {n : Int} (hlt : n.natAbs < 2 ^ 64) :
    (ofInt n).form = plainText (Float.ofInt n) := by
  rw [ofInt, form]
  refine numberText_eq_plainText (isFinite_ofInt hlt) fun hm => ?_
  by_cases hne : n = 0
  · subst hne
    rfl
  · exact absurd hm (mantissa_ofInt hne hlt)

theorem form_arr (items : List Json) :
    (arr items).form = ",".intercalate (items.map fun v => if v.isNull then "" else v.form) := by
  rw [form]
  refine congrArg ",".intercalate ?_
  induction items with
  | nil => rfl
  | cons v rest ih => exact congrArg _ ih

/-- What is read of a value where its text counts.  Numbers have no exponent, nothing stands for the
nulls of a list, and null, truth values, objects and integers of up to fifteen digits are written as
in a document. -/
structure Spells (text : Json → String) : Prop where
  string : ∀ s, text (str s) = s
  null : text null = Json.null.text
  bool : ∀ b, text (bool b) = (Json.bool b).text
  object : ∀ members, text (obj members) = (obj members).text
  list : ∀ items, text (arr items) =
    ",".intercalate (items.map fun v => if v.isNull then "" else text v)
  integer : ∀ n : Int, n.natAbs < 10 ^ 15 → text (ofInt n) = (ofInt n).text
  short : ∀ n : Number, n.toFloat.isFinite = true → IsShort n.toFloat →
    text (num n) = toString (truncate n.toFloat)
  long : ∀ n : Number, n.toFloat.isFinite = true → ¬IsShort n.toFloat →
    text (num n) = plainText n.toFloat

theorem spells_form : Spells form where
  string s := by rw [form]
  null := by rw [form, text]
  bool b := by cases b <;> rw [form, text] <;> rfl
  object members := by rw [form]
  list := form_arr
  integer n h := by
    rw [ofInt, form, text]
    exact numberText_ofInt h
  short n hfinite h := by rw [form, numberText_of_isShort hfinite h]
  long n hfinite h := by rw [form, numberText_of_not_isShort hfinite h]

end Verdict.Json
