import Mathlib.Data.List.TakeWhile
import Verdict.Text.Blank

/-!
# Runs and blanks

The longest run of one kind of character in front of a text, and what is left of a text without
the blanks at its ends.
-/

namespace Verdict.Text

theorem span_eq_iff {p : Char → Bool} {cs run rest : List Char} :
    cs.takeWhile p = run ∧ cs.dropWhile p = rest ↔
      cs = run ++ rest ∧ (∀ c ∈ run, p c = true) ∧ ∀ c ∈ rest.head?, p c = false := by
  constructor
  · rintro ⟨rfl, rfl⟩
    refine ⟨List.takeWhile_append_dropWhile.symm, fun c hc => List.mem_takeWhile_imp hc, ?_⟩
    intro c hc
    have hstop := List.head?_dropWhile_not p cs
    rw [Option.mem_def.mp hc] at hstop
    exact hstop
  · rintro ⟨rfl, hrun, hrest⟩
    rw [List.takeWhile_append_of_pos hrun, List.dropWhile_append_of_pos hrun]
    cases rest with
    | nil => simp
    | cons c rest => simp [hrest c rfl]

theorem dropWhile_eq_self {p : Char → Bool} {cs : List Char}
    (h : ∀ c ∈ cs.head?, p c = false) : cs.dropWhile p = cs :=
  (span_eq_iff.mpr ⟨(List.nil_append cs).symm, by simp, h⟩).2

/-- What is left of a text without the blanks at its ends. -/
structure Trims (text core : List Char) : Prop where
  split : ∃ before after, text = before ++ core ++ after ∧
    (∀ c ∈ before, isBlank c = true) ∧ ∀ c ∈ after, isBlank c = true
  first : ∀ c ∈ core.head?, isBlank c = false
  last : ∀ c ∈ core.getLast?, isBlank c = false

theorem trims_self {cs : List Char} (h : ∀ c ∈ cs, isBlank c = false) : Trims cs cs where
  split := ⟨[], [], by simp, by simp, by simp⟩
  first := fun c hc => h c (List.mem_of_mem_head? hc)
  last := fun c hc => h c (List.mem_of_getLast? hc)

theorem isBlank_eq_false_of_all {cs : List Char} (h : cs.all (!isBlank ·) = true) :
    ∀ c ∈ cs, isBlank c = false := by
  simpa using h

theorem isBlank_of_isDigit {c : Char} (h : c.isDigit = true) : isBlank c = false := by
  have hrange : 48 ≤ c.toNat ∧ c.toNat ≤ 57 := by
    simpa [Char.isDigit, UInt32.le_iff_toNat_le] using h
  simp [isBlank]
  omega

theorem trims_trimChars (text : List Char) : Trims text (trimChars text) := by
  let rest := text.dropWhile isBlank
  let core := (rest.reverse.dropWhile isBlank).reverse
  let after := (rest.reverse.takeWhile isBlank).reverse
  have hrest : rest = core ++ after := by
    rw [← List.reverse_append, List.takeWhile_append_dropWhile, List.reverse_reverse]
  have hfront := span_eq_iff.mp (And.intro rfl (Eq.refl (text.dropWhile isBlank)))
  have hback := span_eq_iff.mp (And.intro rfl (Eq.refl (rest.reverse.dropWhile isBlank)))
  refine ⟨⟨text.takeWhile isBlank, after, ?_, hfront.2.1, ?_⟩, ?_, ?_⟩
  · calc
      text = text.takeWhile isBlank ++ rest := hfront.1
      _ = text.takeWhile isBlank ++ core ++ after := by rw [hrest, List.append_assoc]
  · intro c hc
    exact hback.2.1 c (List.mem_reverse.mp hc)
  · intro c hc
    refine hfront.2.2 c ?_
    rw [show text.dropWhile isBlank = core ++ after from hrest, List.head?_append,
      show core.head? = some c from hc]
    rfl
  · intro c hc
    refine hback.2.2 c ?_
    rwa [← List.getLast?_reverse]

theorem trimChars_eq_iff {text core : List Char} : trimChars text = core ↔ Trims text core := by
  constructor
  · rintro rfl
    exact trims_trimChars text
  · rintro ⟨⟨before, after, rfl, hbefore, hafter⟩, hfirst, hlast⟩
    unfold trimChars
    rw [List.append_assoc, List.dropWhile_append_of_pos hbefore]
    by_cases hcore : core = []
    · subst hcore
      simp [List.dropWhile_eq_nil_iff.mpr hafter]
    · have hhead : (core ++ after).head? = core.head? := by
        cases core with
        | nil => exact absurd rfl hcore
        | cons c core => rfl
      have hback : (after.reverse ++ core.reverse).dropWhile isBlank = core.reverse := by
        rw [List.dropWhile_append_of_pos fun c hc => hafter c (List.mem_reverse.mp hc)]
        apply dropWhile_eq_self
        rwa [List.head?_reverse]
      have hfront : (core ++ after).dropWhile isBlank = core ++ after := by
        apply dropWhile_eq_self
        rwa [hhead]
      rw [hfront, List.reverse_append, hback, List.reverse_reverse]

end Verdict.Text
