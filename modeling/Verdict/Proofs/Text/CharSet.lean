import Mathlib.Data.List.Forall2
import Verdict.Text.Property
import Verdict.Text.Utf8

/-!
# How large sets of characters are

The ranges of a set stand in order, and there are no more of them than entries in the tables that
the set is made from.  The bytes of its members are cut from its ranges: as these are apart, a cut
at a fixed place meets one of them at most, and cuts between blocks leave up to seven parts of each.
-/

namespace Verdict.Text

/-- Ranges in order, each of which ends in front of the next. -/
def Ascending (rs : List (Nat × Nat)) : Prop :=
  rs.Pairwise fun r s => r.2 < s.1

namespace CharSet

/-! ## Ranges that are joined -/

variable {rs : List (Nat × Nat)}

theorem length_join_le (rs : List (Nat × Nat)) : (join rs).length ≤ rs.length := by
  fun_induction join rs with
  | case1 => exact Nat.le_refl _
  | case2 r => exact Nat.le_refl _
  | case3 a b c d rest hle ih => exact Nat.le_succ_of_le ih
  | case4 a b c d rest hgap ih => exact Nat.succ_le_succ ih

theorem low_le_of_mem_join {n : Nat} (h : ∀ r ∈ rs, n ≤ r.1) : ∀ r ∈ join rs, n ≤ r.1 := by
  fun_induction join rs with
  | case1 => exact h
  | case2 r => exact h
  | case3 a b c d rest hle ih =>
    obtain ⟨ha, hrest⟩ := List.forall_mem_cons.mp h
    exact ih (List.forall_mem_cons.mpr ⟨ha, (List.forall_mem_cons.mp hrest).2⟩)
  | case4 a b c d rest hgap ih =>
    obtain ⟨ha, hrest⟩ := List.forall_mem_cons.mp h
    exact List.forall_mem_cons.mpr ⟨ha, ih hrest⟩

theorem ascending_join (h : rs.Pairwise fun r s => r.1 ≤ s.1) : Ascending (join rs) := by
  fun_induction join rs with
  | case1 => exact .nil
  | case2 r => exact List.pairwise_singleton ..
  | case3 a b c d rest hle ih =>
    obtain ⟨ha, hrest⟩ := List.pairwise_cons.mp h
    refine ih (List.pairwise_cons.mpr ⟨(List.forall_mem_cons.mp ha).2, ?_⟩)
    exact (List.pairwise_cons.mp hrest).2
  | case4 a b c d rest hgap ih =>
    obtain ⟨-, hrest⟩ := List.pairwise_cons.mp h
    refine List.pairwise_cons.mpr ⟨fun r hr => ?_, ih hrest⟩
    have hlow := low_le_of_mem_join (n := c)
      (List.forall_mem_cons.mpr ⟨Nat.le_refl _, (List.pairwise_cons.mp hrest).1⟩) r hr
    exact Nat.lt_of_lt_of_le (by omega) hlow

theorem ascending_ofRanges (rs : List (Nat × Nat)) : Ascending (ofRanges rs).ranges.toList := by
  refine ascending_join ((List.pairwise_mergeSort (fun a b c hab hbc => ?_) (fun a b => ?_)
    (rs.filter fun r => r.1 ≤ r.2)).imp fun h => of_decide_eq_true h)
  · simp only [decide_eq_true_eq] at hab hbc ⊢
    omega
  · simp only [Bool.or_eq_true, decide_eq_true_eq]
    omega

theorem size_ofRanges_le (rs : List (Nat × Nat)) : (ofRanges rs).ranges.size ≤ rs.length := by
  refine Nat.le_trans (length_join_le _) ?_
  rw [List.length_mergeSort]
  exact List.length_filter_le ..

theorem size_union_le {s t : CharSet} {m n : Nat} (hs : s.ranges.size ≤ m)
    (ht : t.ranges.size ≤ n) : (s ∪ t).ranges.size ≤ m + n := by
  refine Nat.le_trans (size_ofRanges_le _) ?_
  rw [List.length_append, Array.length_toList, Array.length_toList]
  exact Nat.add_le_add hs ht

theorem size_ofTable_le {rows : List String} {css : List (List Char)}
    (h : List.Forall₂ (fun row cs => row = String.ofList cs) rows css) :
    (ofTable rows).ranges.size ≤ (css.flatMap (·.splitOn ' ')).length := by
  have hentries : entries rows = css.flatMap (·.splitOn ' ') := by
    induction h with
    | nil => rfl
    | cons hrow _ ih =>
      rw [entries, List.flatMap_cons, hrow, String.toList_ofList, List.flatMap_cons, ← ih]
      rfl
  refine Nat.le_trans (size_ofRanges_le _) ?_
  rw [hentries]
  exact List.length_filterMap_le ..

end CharSet

namespace Utf8

/-! ## Cuts at one place -/

/-- What cuts ranges at a place, and nowhere else. -/
structure Cuts (n : Nat) (f : Nat × Nat → List (Nat × Nat)) : Prop where
  length_le : ∀ r, (f r).length ≤ 1 + if r.1 < n ∧ n ≤ r.2 then 1 else 0
  inside : ∀ r, ∀ p ∈ f r, r.1 ≤ p.1 ∧ p.2 ≤ r.2
  ascending : ∀ r, Ascending (f r)

theorem cuts_characters : Cuts 0xE000 characters where
  length_le r := by
    rw [characters, ← List.countP_eq_length_filter]
    simp only [List.countP_cons, List.countP_nil, decide_eq_true_eq]
    split_ifs <;> omega
  inside r p hp := by
    obtain ⟨hp, hle⟩ := List.mem_filter.mp hp
    have := of_decide_eq_true hle
    obtain rfl | hp := List.mem_cons.mp hp
    · exact ⟨Nat.le_refl _, Nat.min_le_left ..⟩
    · cases List.mem_singleton.mp hp
      exact ⟨Nat.le_max_left .., Nat.le_refl _⟩
  ascending r := by
    refine List.Pairwise.filter _ (List.pairwise_pair.mpr ?_)
    simp only
    omega

theorem cuts_cutBefore (n : Nat) : Cuts n (cutBefore n) where
  length_le r := by
    rw [cutBefore]
    split <;> exact Nat.le_refl _
  inside r p hp := by
    rw [cutBefore] at hp
    split at hp <;> simp only [List.mem_cons, List.not_mem_nil, or_false] at hp
    · obtain rfl | rfl := hp <;> constructor <;> simp only <;> omega
    · cases hp
      exact ⟨Nat.le_refl _, Nat.le_refl _⟩
  ascending r := by
    rw [cutBefore]
    split
    · refine List.pairwise_pair.mpr ?_
      simp only
      omega
    · exact List.pairwise_singleton ..

section Cuts

variable {n : Nat} {f : Nat × Nat → List (Nat × Nat)} {rs : List (Nat × Nat)}

theorem Cuts.ascending_flatMap (hf : Cuts n f) (h : Ascending rs) :
    Ascending (rs.flatMap f) := by
  refine List.pairwise_flatMap.mpr ⟨fun r _ => hf.ascending r, h.imp fun {r s} hlt p hp q hq => ?_⟩
  exact Nat.lt_of_le_of_lt (hf.inside r p hp).2 (Nat.lt_of_lt_of_le hlt (hf.inside s q hq).1)

theorem Cuts.length_flatMap_behind (hf : Cuts n f) (h : ∀ r ∈ rs, n ≤ r.1) :
    (rs.flatMap f).length ≤ rs.length := by
  induction rs with
  | nil => exact Nat.le_refl _
  | cons r rest ih =>
    obtain ⟨hr, hrest⟩ := List.forall_mem_cons.mp h
    have hself := hf.length_le r
    rw [if_neg (by omega)] at hself
    rw [List.flatMap_cons, List.length_append, List.length_cons]
    have := ih hrest
    omega

/-- As ranges are apart, one of them is cut at most. -/
theorem Cuts.length_flatMap_le (hf : Cuts n f) (h : Ascending rs) :
    (rs.flatMap f).length ≤ rs.length + 1 := by
  induction rs with
  | nil => exact Nat.zero_le _
  | cons r rest ih =>
    obtain ⟨hr, hrest⟩ := List.pairwise_cons.mp h
    have hself := hf.length_le r
    rw [List.flatMap_cons, List.length_append, List.length_cons]
    split at hself
    · have hbehind : (rest.flatMap f).length ≤ rest.length :=
        hf.length_flatMap_behind fun s hs => by
          have := hr s hs
          omega
      omega
    · have := ih hrest
      omega

end Cuts

/-! ## Cuts between blocks -/

def Spread (size : Nat) (r : Nat × Nat) : Prop :=
  r.1 / size ≠ r.2 / size

instance (size : Nat) : DecidablePred (Spread size) := fun r =>
  inferInstanceAs (Decidable (r.1 / size ≠ r.2 / size))

theorem Spread.of_dvd {size wider : Nat} {r : Nat × Nat} (hdvd : size ∣ wider)
    (h : Spread wider r) : Spread size r := by
  obtain ⟨k, rfl⟩ := hdvd
  refine fun heq => h ?_
  rw [← Nat.div_div_eq_div_mul, ← Nat.div_div_eq_div_mul, heq]

theorem not_spread_pred_nextBlock {n size : Nat} (h : n < (n + size - 1) / size * size) :
    ¬ Spread size (n, (n + size - 1) / size * size - 1) := by
  generalize hq : (n + size - 1) / size = q at h ⊢
  have hle : q * size ≤ n + size - 1 := hq ▸ Nat.div_mul_le_self ..
  cases q with
  | zero => exact absurd h (by omega)
  | succ p =>
    rw [Nat.succ_mul] at h hle ⊢
    have hfirst : n / size = p :=
      Nat.div_eq_of_lt_le (by omega) (by rw [Nat.succ_mul]; exact h)
    have hlast : (p * size + size - 1) / size = p :=
      Nat.div_eq_of_lt_le (by omega) (by rw [Nat.succ_mul]; omega)
    exact not_not.mpr (hfirst.trans hlast.symm)

theorem not_spread_lastBlock {n size : Nat} (hsize : 0 < size) (h : (n + 1) / size * size ≤ n) :
    ¬ Spread size ((n + 1) / size * size, n) := by
  have hnext : n + 1 < size * ((n + 1) / size + 1) := Nat.lt_mul_div_succ _ hsize
  have hlast : n / size = (n + 1) / size :=
    Nat.div_eq_of_lt_le h (by rw [Nat.mul_comm]; omega)
  exact not_not.mpr ((Nat.mul_div_cancel _ hsize).trans hlast.symm)

/-- A range without its end, where that does not fill its block, and the end. -/
def trimmed (size : Nat) (r : Nat × Nat) : List (Nat × Nat) :=
  if r.1 / size = r.2 / size then [r] else cutBefore ((r.2 + 1) / size * size) r

section Blocks

variable {size wider : Nat} {r : Nat × Nat}

theorem cutBlocks_of_spread (h : Spread size r) :
    (r.1 < (r.1 + size - 1) / size * size ∧ cutBlocks size r =
      (r.1, (r.1 + size - 1) / size * size - 1) ::
        trimmed size ((r.1 + size - 1) / size * size, r.2)) ∨
      cutBlocks size r = trimmed size r := by
  rw [cutBlocks, if_neg h, cutBefore]
  split
  · rename_i hcut
    refine .inl ⟨hcut.1, ?_⟩
    have hfirst := not_not.mp (not_spread_pred_nextBlock hcut.1)
    rw [List.flatMap_cons, if_pos hfirst, List.flatMap_singleton]
    rfl
  · exact .inr (List.flatMap_singleton ..)

theorem length_trimmed_le (size : Nat) (r : Nat × Nat) : (trimmed size r).length ≤ 2 := by
  rw [trimmed]
  split
  · exact Nat.le_succ 1
  · exact Nat.le_trans ((cuts_cutBefore _).length_le r) (by split <;> omega)

theorem countP_trimmed_le (hsize : 0 < size) (hdvd : size ∣ wider) (r : Nat × Nat) :
    (trimmed size r).countP (Spread wider ·) ≤ 1 := by
  rw [trimmed, cutBefore]
  split
  · exact List.countP_le_length
  · split
    · rename_i hcut
      have hlast : ¬ Spread wider ((r.2 + 1) / size * size, r.2) := fun h =>
        not_spread_lastBlock hsize hcut.2 (h.of_dvd hdvd)
      rw [List.countP_cons, List.countP_singleton, if_neg (by simpa using hlast)]
      split <;> omega
    · exact List.countP_le_length

theorem length_cutBlocks_le (size : Nat) (r : Nat × Nat) :
    (cutBlocks size r).length ≤ 1 + if Spread size r then 2 else 0 := by
  split
  · rename_i h
    obtain ⟨-, heq⟩ | heq := cutBlocks_of_spread h
    · rw [heq, List.length_cons]
      have := length_trimmed_le size ((r.1 + size - 1) / size * size, r.2)
      omega
    · rw [heq]
      exact Nat.le_succ_of_le (length_trimmed_le size r)
  · rename_i h
    rw [cutBlocks, if_pos (not_not.mp h)]
    exact Nat.le_refl _

theorem countP_cutBlocks_le (hsize : 0 < size) (hdvd : size ∣ wider) (r : Nat × Nat) :
    (cutBlocks size r).countP (Spread wider ·) ≤ if Spread size r then 1 else 0 := by
  split
  · rename_i h
    obtain ⟨hlow, heq⟩ | heq := cutBlocks_of_spread h
    · have hfirst : ¬ Spread wider (r.1, (r.1 + size - 1) / size * size - 1) := fun h =>
        not_spread_pred_nextBlock hlow (h.of_dvd hdvd)
      rw [heq, List.countP_cons, if_neg (by simpa using hfirst)]
      exact countP_trimmed_le hsize hdvd _
    · rw [heq]
      exact countP_trimmed_le hsize hdvd r
  · rename_i h
    have hnone : ¬ Spread wider r := fun hw => h (hw.of_dvd hdvd)
    refine Nat.le_of_eq ?_
    rw [cutBlocks, if_pos (not_not.mp h)]
    simp [hnone]

/-- Cuts leave two more parts of what is spread, and one of these at most is spread over larger
blocks. -/
theorem flatMap_cutBlocks_le (hsize : 0 < size) (hdvd : size ∣ wider) (rs : List (Nat × Nat)) :
    (rs.flatMap (cutBlocks size)).length ≤ rs.length + 2 * rs.countP (Spread size ·) ∧
      (rs.flatMap (cutBlocks size)).countP (Spread wider ·) ≤ rs.countP (Spread size ·) := by
  induction rs with
  | nil => exact ⟨Nat.le_refl _, Nat.le_refl _⟩
  | cons r rest ih =>
    have hlength := length_cutBlocks_le size r
    have hcount := countP_cutBlocks_le hsize hdvd r
    simp only [List.flatMap_cons, List.length_append, List.countP_append, List.length_cons,
      List.countP_cons, decide_eq_true_eq]
    split_ifs at hlength hcount ⊢ <;> omega

end Blocks

theorem length_blocks_le (r : Nat × Nat) :
    (((cutBlocks 0x40 r).flatMap (cutBlocks 0x1000)).flatMap (cutBlocks 0x40000)).length ≤ 7 := by
  have hlength := length_cutBlocks_le 0x40 r
  have hcount := countP_cutBlocks_le (by decide : 0 < 0x40) (by decide : 0x40 ∣ 0x1000) r
  obtain ⟨hlength₂, hcount₂⟩ := flatMap_cutBlocks_le (by decide : 0 < 0x1000)
    (by decide : 0x1000 ∣ 0x40000) (cutBlocks 0x40 r)
  have hlength₃ := (flatMap_cutBlocks_le (by decide : 0 < 0x40000) (Nat.dvd_refl _)
    ((cutBlocks 0x40 r).flatMap (cutBlocks 0x1000))).1
  split_ifs at hlength hcount <;> omega

theorem length_flatMap_le {α β : Type} {f : α → List β} {l : List α} {n : Nat}
    (h : ∀ x ∈ l, (f x).length ≤ n) : (l.flatMap f).length ≤ n * l.length := by
  induction l with
  | nil => exact Nat.le_refl _
  | cons x rest ih =>
    obtain ⟨hx, hrest⟩ := List.forall_mem_cons.mp h
    rw [List.flatMap_cons, List.length_append, List.length_cons, Nat.mul_succ, Nat.add_comm]
    exact Nat.add_le_add (ih hrest) hx

theorem length_sequences_le {s : CharSet} (h : Ascending s.ranges.toList) :
    (sequences s).length ≤ 7 * (s.ranges.size + 4) := by
  have hchars := cuts_characters.ascending_flatMap h
  have hone := (cuts_cutBefore 0x80).ascending_flatMap hchars
  have htwo := (cuts_cutBefore 0x800).ascending_flatMap hone
  have h₁ := cuts_characters.length_flatMap_le h
  have h₂ := (cuts_cutBefore 0x80).length_flatMap_le hchars
  have h₃ := (cuts_cutBefore 0x800).length_flatMap_le hone
  have h₄ := (cuts_cutBefore 0x10000).length_flatMap_le htwo
  have hsize : s.ranges.toList.length = s.ranges.size := Array.length_toList
  rw [sequences]
  refine Nat.le_trans (length_flatMap_le fun r _ => ?_) (Nat.mul_le_mul_left 7 (by omega))
  rw [List.length_map]
  split
  · exact Nat.le_add_left 1 6
  · exact length_blocks_le r

theorem length_le_of_mem_sequences {s : CharSet} {e : List ByteRange} (h : e ∈ sequences s) :
    e.length ≤ 4 := by
  rw [sequences] at h
  obtain ⟨_, -, h⟩ := List.mem_flatMap.mp h
  obtain ⟨r, -, rfl⟩ := List.mem_map.mp h
  rw [List.length_zip, bytes, List.length_map, String.length_utf8EncodeChar]
  exact Nat.le_trans (Nat.min_le_left ..) (Char.utf8Size_le_four _)

theorem length_flatten_sequences_le (s : CharSet) :
    (sequences s).flatten.length ≤ 4 * (sequences s).length := by
  rw [← List.flatMap_id]
  exact length_flatMap_le fun _ => length_le_of_mem_sequences

end Utf8

/-! ## Classes that patterns abbreviate -/

section Classes

open CharSet Category Property

theorem size_decimalNumber_le : decimalNumber.ranges.size ≤ 71 := by
  apply Nat.le_trans
  · exact size_ofTable_le (by repeat' constructor)
  · decide

theorem size_whiteSpace_le : whiteSpace.ranges.size ≤ 10 := by
  apply Nat.le_trans
  · exact size_ofTable_le (by repeat' constructor)
  · decide

/-- Letters with and without case, marks, digits and connectors, table by table. -/
theorem size_wordChar_le : wordChar.ranges.size ≤ 4164 := by
  apply Nat.le_trans
  · repeat' apply size_union_le
    any_goals exact size_ofTable_le (by repeat' constructor)
    exact size_ofRanges_le _
  · decide +kernel

end Classes

end Verdict.Text
