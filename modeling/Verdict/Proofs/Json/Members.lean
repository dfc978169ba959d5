import Mathlib.Data.String.Basic
import Verdict.Json.Basic

/-!
# Members of objects

What names are bound to after binding and unbinding others, and in members that were gathered from
a list.
-/

namespace Verdict.Members

variable {α : Type} {name key : String} {v : α}

theorem value?_cons (ms : Members α) :
    value? name ((key, v) :: ms) = if key = name then some v else value? name ms :=
  rfl

theorem mem_of_value? {ms : Members α} {v : α} (h : value? name ms = some v) : (name, v) ∈ ms := by
  induction ms with
  | nil => cases h
  | cons pair ms ih =>
    rw [value?_cons] at h
    split at h
    · rename_i hname
      cases h
      rw [← hname]
      exact List.mem_cons_self
    · exact List.mem_cons_of_mem _ (ih h)

theorem value?_append (ms ns : Members α) :
    value? name (ms ++ ns) = (value? name ms).or (value? name ns) := by
  induction ms with
  | nil => rfl
  | cons m ms ih =>
    rw [List.cons_append, value?_cons, value?_cons, ih]
    split <;> rfl

theorem value?_put (ms : Members α) :
    value? name (put key v ms) = if key = name then some v else value? name ms := by
  induction ms with
  | nil => rfl
  | cons m ms ih =>
    obtain ⟨k, w⟩ := m
    rw [put]
    split
    · rfl
    · split
      · rename_i hk
        subst hk
        rw [value?_cons, value?_cons]
        split <;> rfl
      · rename_i hk
        rw [value?_cons, value?_cons, ih]
        by_cases hname : key = name
        · subst hname
          rw [if_neg hk, if_pos rfl, if_pos rfl]
        · rw [if_neg hname, if_neg hname]

theorem value?_filter {p : String → Bool} (hname : p name = true) (ms : Members α) :
    value? name (ms.filter fun m => p m.1) = value? name ms := by
  induction ms with
  | nil => rfl
  | cons m ms ih =>
    obtain ⟨k, w⟩ := m
    rw [List.filter_cons]
    split
    · rw [value?_cons, value?_cons, ih]
    · rename_i hk
      have hne : k ≠ name := fun h => hk (h ▸ hname)
      rw [ih, value?_cons, if_neg hne]

/-- The last binding counts. -/
theorem value?_gather (pairs : List (String × α)) :
    value? name (gather pairs) = value? name pairs.reverse := by
  rw [gather, List.foldl_eq_foldr_reverse]
  induction pairs.reverse with
  | nil => rfl
  | cons p ps ih => rw [List.foldr_cons, value?_put, ih, value?_cons]

theorem value?_eq_none_iff {ms : Members α} : value? name ms = none ↔ name ∉ names ms := by
  induction ms with
  | nil => exact ⟨fun _ => nofun, fun _ => rfl⟩
  | cons m ms ih =>
    obtain ⟨k, w⟩ := m
    rw [value?_cons, names, List.map_cons, List.mem_cons, not_or, ← names, ← ih]
    by_cases hk : k = name
    · rw [if_pos hk]
      exact ⟨nofun, fun h => absurd hk.symm h.1⟩
    · rw [if_neg hk]
      exact ⟨fun h => ⟨Ne.symm hk, h⟩, And.right⟩

theorem mem_names_iff {ms : Members α} : name ∈ names ms ↔ (value? name ms).isSome = true := by
  rw [← not_iff_not, ← value?_eq_none_iff, Bool.not_eq_true, Option.isSome_eq_false_iff,
    Option.isNone_iff_eq_none]

/-! ## Order -/

/-- The names stand in order, so each of them once. -/
def Sorted (ms : Members α) : Prop :=
  (names ms).Pairwise (· < ·)

theorem Sorted.nodup {ms : Members α} (h : Sorted ms) : (names ms).Nodup :=
  h.imp fun hlt => ne_of_lt hlt

theorem names_put_subset (ms : Members α) : ∀ k ∈ names (put key v ms), k = key ∨ k ∈ names ms := by
  induction ms with
  | nil => exact fun k hk => .inl (List.mem_singleton.mp hk)
  | cons m ms ih =>
    obtain ⟨j, w⟩ := m
    intro k hk
    rw [put] at hk
    split at hk
    · exact List.mem_cons.mp hk
    · split at hk
      · exact (List.mem_cons.mp hk).imp_right (List.mem_cons_of_mem j)
      · rcases List.mem_cons.mp hk with rfl | hk
        · exact .inr List.mem_cons_self
        · exact (ih k hk).imp_right (List.mem_cons_of_mem j)

theorem Sorted.put {ms : Members α} (h : Sorted ms) : Sorted (put key v ms) := by
  induction ms with
  | nil => exact List.pairwise_singleton _ _
  | cons m ms ih =>
    obtain ⟨k, w⟩ := m
    obtain ⟨hk, hms⟩ := List.pairwise_cons.mp h
    rw [Members.put]
    split
    · rename_i hlt
      refine List.pairwise_cons.mpr ⟨fun j hj => ?_, h⟩
      rcases List.mem_cons.mp hj with rfl | hj
      · exact hlt
      · exact hlt.trans (hk j hj)
    · rename_i hlt
      split
      · rename_i hkey
        exact List.pairwise_cons.mpr ⟨fun j hj => hkey ▸ hk j hj, hms⟩
      · rename_i hkey
        refine List.pairwise_cons.mpr ⟨fun j hj => ?_, ih hms⟩
        rcases names_put_subset ms j hj with rfl | hj
        · exact lt_of_le_of_ne (not_lt.mp hlt) hkey
        · exact hk j hj

theorem Sorted.gather (pairs : List (String × α)) : Sorted (gather pairs) := by
  rw [Members.gather, List.foldl_eq_foldr_reverse]
  induction pairs.reverse with
  | nil => exact List.Pairwise.nil
  | cons p ps ih => exact ih.put

/-- A name greater than all others goes to the end. -/
theorem put_last {ms : Members α} (h : ∀ k ∈ names ms, k < key) :
    put key v ms = ms ++ [(key, v)] := by
  induction ms with
  | nil => rfl
  | cons m ms ih =>
    obtain ⟨k, w⟩ := m
    obtain ⟨hk, hms⟩ := List.forall_mem_cons.mp h
    rw [put, if_neg (lt_asymm hk), if_neg (ne_of_lt hk), ih hms]
    rfl

theorem foldl_put_of_sorted {ms pairs : Members α} (h : Sorted (ms ++ pairs)) :
    pairs.foldl (fun members pair => put pair.1 pair.2 members) ms = ms ++ pairs := by
  induction pairs generalizing ms with
  | nil => exact (List.append_nil ms).symm
  | cons p pairs ih =>
    have hlast : ∀ k ∈ names ms, k < p.1 := by
      intro k hk
      rw [Sorted, names, List.map_append, List.pairwise_append] at h
      exact h.2.2 k hk p.1 List.mem_cons_self
    rw [List.foldl_cons, put_last hlast, ih (by simpa using h), List.append_assoc]
    rfl

/-- Members in order stay as they are. -/
theorem gather_of_sorted {ms : Members α} (h : Sorted ms) : gather ms = ms :=
  foldl_put_of_sorted (show Sorted ([] ++ ms) from h)

theorem remove_sublist (ms : Members α) : (remove key ms).Sublist ms := by
  induction ms with
  | nil => exact .slnil
  | cons m ms ih =>
    obtain ⟨k, w⟩ := m
    rw [remove]
    split
    · exact List.sublist_cons_self _ _
    · exact ih.cons_cons _

theorem Sorted.remove {ms : Members α} (h : Sorted ms) : Sorted (remove key ms) :=
  List.Pairwise.sublist ((remove_sublist ms).map _) h

theorem value?_remove {ms : Members α} (h : Sorted ms) :
    value? name (remove key ms) = if key = name then none else value? name ms := by
  induction ms with
  | nil => rw [remove]; split <;> rfl
  | cons m ms ih =>
    obtain ⟨k, w⟩ := m
    obtain ⟨hk, hms⟩ := List.pairwise_cons.mp h
    rw [remove]
    split
    · rename_i hkey
      subst hkey
      split
      · rename_i hname
        subst hname
        -- the other names are greater
        exact value?_eq_none_iff.mpr fun hmem => lt_irrefl k (hk k hmem)
      · rename_i hname
        rw [value?_cons, if_neg hname]
    · rename_i hkey
      rw [value?_cons, value?_cons, ih hms]
      by_cases hname : key = name
      · subst hname
        rw [if_neg hkey, if_pos rfl, if_pos rfl]
      · rw [if_neg hname, if_neg hname]

/-- Binding a name to what it is bound to changes nothing. -/
theorem put_of_value? {ms : Members α} (h : Sorted ms) (hv : value? key ms = some v) :
    put key v ms = ms := by
  induction ms with
  | nil => cases hv
  | cons m ms ih =>
    obtain ⟨k, w⟩ := m
    obtain ⟨hk, hms⟩ := List.pairwise_cons.mp h
    rw [value?_cons] at hv
    rw [put]
    split at hv
    · rename_i hkey
      cases hv
      rw [if_neg (hkey ▸ lt_irrefl k), if_pos hkey, hkey]
    · rename_i hkey
      have hmem : key ∈ names ms := mem_names_iff.mpr (by rw [hv]; rfl)
      rw [if_neg (lt_asymm (hk key hmem)), if_neg hkey, ih hms hv]

end Verdict.Members
