import Mathlib.Algebra.Group.Int.Defs
import Verdict.Decimal.Reading

/-!
# Reading whole numbers

Which texts are read as signed 64-bit integers, and as which.
-/

namespace Verdict.Decimal

theorem isSigned_iff (n : Int) : Word.isSigned n = true ↔ -2 ^ 63 ≤ n ∧ n < 2 ^ 63 := by
  unfold Word.isSigned
  rw [Bool.and_eq_true, decide_eq_true_iff, decide_eq_true_iff]
  unfold Word.signedLimit
  omega

def Digits (ds : List Char) : Prop :=
  ds ≠ [] ∧ ∀ c ∈ ds, c.isDigit = true

theorem isDigit_eq (c : Char) : isDigit c = c.isDigit := by
  unfold isDigit Char.isDigit
  rfl

theorem digits_iff (ds : List Char) : Digits ds ↔ (ds.isEmpty || !ds.all isDigit) = false := by
  simp [Digits, isDigit_eq]

theorem digits_toDigits (n : Nat) : Digits (Nat.toDigits 10 n) :=
  ⟨Nat.toDigits_ne_nil, fun _ hc => Nat.isDigit_of_mem_toDigits (by decide) (by decide) hc⟩

theorem Digits.ne_cons {ds : List Char} (h : Digits ds) {c : Char} (hc : c.isDigit = false)
    (rest : List Char) : ds ≠ c :: rest := by
  rintro rfl
  have := h.2 c List.mem_cons_self
  simp [hc] at this

theorem splitSign_digits {ds : List Char} (h : Digits ds) : splitSign ds = (false, ds) := by
  unfold splitSign
  split
  · exact absurd rfl (h.ne_cons (by decide) _)
  · exact absurd rfl (h.ne_cons (by decide) _)
  · rfl

theorem splitSign_eq {cs ds : List Char} {negative : Bool} (h : splitSign cs = (negative, ds)) :
    negative = false ∧ (cs = ds ∨ cs = '+' :: ds) ∨ negative = true ∧ cs = '-' :: ds := by
  unfold splitSign at h
  split at h
  · cases h; exact Or.inr ⟨rfl, rfl⟩
  · cases h; exact Or.inl ⟨rfl, Or.inr rfl⟩
  · cases h; exact Or.inl ⟨rfl, Or.inl rfl⟩

def signed (negative : Bool) (ds : List Char) : Int :=
  if negative then -(Nat.ofDigitChars 10 ds 0 : Int) else Nat.ofDigitChars 10 ds 0

theorem readInt64_of_sign (negative : Bool) {cs ds : List Char}
    (hsign : splitSign cs = (negative, ds)) (n : Int) :
    readInt64 cs = some n ↔ Digits ds ∧ Word.isSigned n = true ∧ n = signed negative ds := by
  have hread : readInt64 cs = if (ds.isEmpty || !ds.all isDigit) = true then none
      else if Word.isSigned (signed negative ds) = true then some (signed negative ds)
      else none := by
    unfold readInt64
    rw [hsign]
    rfl
  rw [hread, digits_iff]
  by_cases hds : (ds.isEmpty || !ds.all isDigit) = true
  · rw [if_pos hds, hds]
    simp
  · rw [if_neg hds]
    grind

/-- Which texts are read, and as which number: a sign may stand in front of the digits. -/
theorem readInt64_eq_some_iff {cs : List Char} {n : Int} :
    readInt64 cs = some n ↔ ∃ ds, Digits ds ∧ Word.isSigned n = true ∧
      ((cs = ds ∨ cs = '+' :: ds) ∧ n = Nat.ofDigitChars 10 ds 0 ∨
        cs = '-' :: ds ∧ n = -(Nat.ofDigitChars 10 ds 0 : Int)) := by
  constructor
  · intro h
    obtain ⟨hds, hn, hvalue⟩ := (readInt64_of_sign _ (Prod.eta _).symm n).mp h
    refine ⟨(splitSign cs).2, hds, hn, ?_⟩
    obtain ⟨hsign, hcs⟩ | ⟨hsign, hcs⟩ := splitSign_eq (Prod.eta (splitSign cs)).symm
    · exact Or.inl ⟨hcs, by rwa [hsign] at hvalue⟩
    · exact Or.inr ⟨hcs, by rwa [hsign] at hvalue⟩
  · rintro ⟨ds, h, hn, ⟨rfl | rfl, hvalue⟩ | ⟨rfl, hvalue⟩⟩
    · exact (readInt64_of_sign false (splitSign_digits h) n).mpr ⟨h, hn, hvalue⟩
    · exact (readInt64_of_sign false rfl n).mpr ⟨h, hn, hvalue⟩
    · exact (readInt64_of_sign true rfl n).mpr ⟨h, hn, hvalue⟩

end Verdict.Decimal
