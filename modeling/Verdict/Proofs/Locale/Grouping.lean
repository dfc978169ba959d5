import Verdict.Locale.Number
import Verdict.Proofs.Decimal.Fixed
import Verdict.Proofs.Locale

/-!
# Groups of digits

The groups of a whole number are cut from the right, and a grouping says by the number of digits
that follow whether a separator stands before them.
-/

namespace Verdict

/-! ## Where digits are cut -/

def Grouping.cuts : Grouping → Nat → Bool
  | .none, _ => false
  | .thousands, n => decide (0 < n) && n % 3 == 0
  | .indian, n => decide (3 ≤ n) && n % 2 == 1

namespace Locale

open Decimal

variable {cut cut' : Nat → Bool} {sep : Char}

/-- Digits with a separator wherever so many digits follow as the rule cuts off. -/
def separate (cut : Nat → Bool) (sep : Char) : List Char → List Char
  | [] => []
  | d :: ds => d :: if cut ds.length then sep :: separate cut sep ds else separate cut sep ds

def inGroups (l : Locale) (ds : List Char) : List Char :=
  separate l.grouping.cuts l.separator ds

theorem separate_of_not_cut {ds : List Char} (h : ∀ n < ds.length, cut n = false) :
    separate cut sep ds = ds := by
  induction ds with
  | nil => rfl
  | cons d ds ih =>
    rw [separate, h ds.length (Nat.lt_succ_self _), ih fun n hn => h n (Nat.lt_succ_of_lt hn)]
    rfl

/-- The last digits stand for themselves if a rule cuts just before them, and what precedes them is
separated by the rule that counts from there. -/
theorem separate_append {ys : List Char} (hlow : ∀ n < ys.length, cut n = false)
    (hend : cut ys.length = true) (hrest : ∀ n, cut (n + 1 + ys.length) = cut' (n + 1))
    (hzero : cut' 0 = false) {xs : List Char} (hxs : xs ≠ []) :
    separate cut sep (xs ++ ys) = separate cut' sep xs ++ sep :: ys := by
  induction xs with
  | nil => exact absurd rfl hxs
  | cons x xs ih =>
    rw [List.cons_append, separate, separate, List.length_append]
    cases xs with
    | nil =>
      rw [List.nil_append, List.length_nil, zero_add, hend, hzero, separate_of_not_cut hlow]
      rfl
    | cons x' xs =>
      rw [ih (List.cons_ne_nil _ _), List.length_cons, hrest]
      cases cut' (xs.length + 1) <;> rfl

theorem intercalate_concat {pieces : List (List Char)} (hpieces : pieces ≠ [])
    (piece : List Char) : [sep].intercalate (pieces ++ [piece]) =
      [sep].intercalate pieces ++ sep :: piece := by
  induction pieces with
  | nil => exact absurd rfl hpieces
  | cons p pieces ih =>
    cases pieces with
    | nil =>
      rw [List.cons_append, List.nil_append, List.intercalate_cons_of_ne_nil (List.cons_ne_nil _ _),
        List.intercalate_singleton, List.intercalate_singleton, List.append_assoc]
      rfl
    | cons q pieces =>
      rw [List.cons_append, List.intercalate_cons_of_ne_nil (by simp), ih (List.cons_ne_nil _ _),
        List.intercalate_cons_of_ne_nil (List.cons_ne_nil _ _)]
      simp only [List.append_assoc]

/-! ## Groups -/

def every (size n : Nat) : Bool :=
  decide (0 < n) && n % size == 0

def joined (sep : Char) (pieces : List (List Char)) : List Char :=
  [sep].intercalate (pieces.map List.reverse).reverse

theorem joined_singleton (piece : List Char) : joined sep [piece] = piece.reverse :=
  List.intercalate_singleton

theorem joined_cons {pieces : List (List Char)} (hpieces : pieces ≠ []) (piece : List Char) :
    joined sep (piece :: pieces) = joined sep pieces ++ sep :: piece.reverse := by
  rw [joined, List.map_cons, List.reverse_cons, intercalate_concat (by simpa using hpieces)]
  rfl

/-- One group of digits, and what is made of the digits before it. -/
theorem joined_take {size : Nat} {rev : List Char} {pieces : List (List Char)}
    (hempty : pieces = [] ↔ rev.drop size = [])
    (hpieces : joined sep pieces = separate cut' sep (rev.drop size).reverse)
    (hlow : ∀ n < size, cut n = false) (hend : cut size = true)
    (hrest : ∀ n, cut (n + 1 + size) = cut' (n + 1)) (hzero : cut' 0 = false) :
    joined sep (rev.take size :: pieces) = separate cut sep rev.reverse := by
  by_cases hdrop : rev.drop size = []
  · rw [hempty.mpr hdrop, joined_singleton]
    have hlength : rev.length ≤ size := List.drop_eq_nil_iff.mp hdrop
    have hdigits : separate cut sep rev.reverse = rev.reverse :=
      separate_of_not_cut fun n hn => hlow n (by rw [List.length_reverse] at hn; omega)
    rw [hdigits, List.take_of_length_le hlength]
  · have hlength : (rev.take size).reverse.length = size := by
      rw [List.length_reverse, List.length_take]
      have := mt List.drop_eq_nil_iff.mpr hdrop
      omega
    rw [joined_cons (mt hempty.mp hdrop), hpieces]
    conv_rhs => rw [← List.take_append_drop size rev, List.reverse_append]
    refine (separate_append ?_ ?_ ?_ hzero (by simpa using hdrop)).symm
    · rwa [hlength]
    · rwa [hlength]
    · rwa [hlength]

theorem chunks_eq_nil_iff {size fuel : Nat} {rev : List Char} (hfuel : rev.length ≤ fuel) :
    chunks size fuel rev = [] ↔ rev = [] := by
  cases fuel with
  | zero =>
    obtain rfl := List.length_eq_zero_iff.mp (Nat.le_zero.mp hfuel)
    exact iff_of_true rfl rfl
  | succ fuel =>
    cases rev with
    | nil => exact iff_of_true rfl rfl
    | cons d rev => exact iff_of_false nofun nofun

theorem joined_chunks {size fuel : Nat} (hsize : 0 < size) {rev : List Char}
    (hfuel : rev.length ≤ fuel) :
    joined sep (chunks size fuel rev) = separate (every size) sep rev.reverse := by
  induction fuel generalizing rev with
  | zero =>
    obtain rfl := List.length_eq_zero_iff.mp (Nat.le_zero.mp hfuel)
    rfl
  | succ fuel ih =>
    cases rev with
    | nil => rfl
    | cons d rev =>
      have hdrop : ((d :: rev).drop size).length ≤ fuel := by
        rw [List.length_drop]
        rw [List.length_cons] at hfuel ⊢
        omega
      refine joined_take (chunks_eq_nil_iff hdrop) (ih hdrop) ?_ ?_ ?_ rfl
      · intro n hn
        rcases Nat.eq_zero_or_pos n with rfl | hpos
        · rfl
        · simp [every, Nat.mod_eq_of_lt hn, hpos.ne']
      · simp [every, hsize]
      · intro n
        simp [every]

/-- A whole number is cut where the grouping of its locale says. -/
theorem grouped_eq (l : Locale) (ds : List Char) : l.grouped ds = l.inGroups ds := by
  obtain ⟨decimal, grouping, minus, separator⟩ := l
  change joined separator _ = separate grouping.cuts separator ds
  cases grouping with
  | none =>
    change joined separator [ds.reverse] = _
    rw [joined_singleton, List.reverse_reverse]
    exact (separate_of_not_cut fun _ _ => rfl).symm
  | thousands =>
    conv_rhs => rw [← List.reverse_reverse ds]
    exact joined_chunks (by decide) (List.length_reverse).le
  | indian =>
    have hdrop : (ds.reverse.drop 3).length ≤ ds.length := by
      rw [List.length_drop, List.length_reverse]
      omega
    conv_rhs => rw [← List.reverse_reverse ds]
    refine joined_take (chunks_eq_nil_iff hdrop) (joined_chunks two_pos hdrop) ?_ rfl ?_ rfl
    · intro n hn
      simp [Grouping.cuts, not_le.mpr hn]
    · intro n
      have hparity : (n + 1 + 3) % 2 = 1 ↔ (n + 1) % 2 = 0 := by omega
      simp [Grouping.cuts, every, hparity]

/-! ## Separators -/

theorem filter_separate {ds : List Char} (h : sep ∉ ds) :
    (separate cut sep ds).filter (· != sep) = ds := by
  induction ds with
  | nil => rfl
  | cons d ds ih =>
    rw [List.mem_cons, not_or] at h
    have hd : (d != sep) = true := bne_iff_ne.mpr (Ne.symm h.1)
    have hsep : ¬(sep != sep) = true := by simp
    rw [separate, List.filter_cons_of_pos (p := (· != sep)) hd]
    split
    · rw [List.filter_cons_of_neg (p := (· != sep)) hsep, ih h.2]
    · rw [ih h.2]

theorem mem_separate {ds : List Char} {c : Char} (h : c ∈ separate cut sep ds) :
    c = sep ∨ c ∈ ds := by
  induction ds with
  | nil => cases h
  | cons d ds ih =>
    rw [separate, List.mem_cons] at h
    rcases h with rfl | h
    · exact .inr List.mem_cons_self
    · split at h
      · rcases List.mem_cons.mp h with rfl | h
        · exact .inl rfl
        · exact (ih h).imp_right (List.mem_cons_of_mem d)
      · exact (ih h).imp_right (List.mem_cons_of_mem d)

/-- The signs of a locale are told from digits and from each other. -/
structure Clear (l : Locale) : Prop where
  decimal : l.decimal.isDigit = false
  separator : l.separator.isDigit = false
  ne : l.decimal ≠ l.separator
  minus : ∀ c ∈ l.minus.toList, c.isDigit = false

theorem clear_resolve (name : String) : (resolve name).Clear := by
  have hsigns : ∀ l ∈ table.map (·.1), l.decimal.isDigit = false ∧ l.separator.isDigit = false ∧
      l.decimal ≠ l.separator := by
    decide
  have hminus : ∀ l ∈ table.map (·.1), l.minus.toList.any Char.isDigit = false := by decide
  obtain ⟨hdecimal, hseparator, hne⟩ := hsigns _ (resolve_mem name)
  refine ⟨hdecimal, hseparator, hne, fun c hc => ?_⟩
  have hnone := List.any_eq_false.mp (hminus _ (resolve_mem name)) c hc
  exact Bool.not_eq_true _ ▸ hnone

end Locale

end Verdict
