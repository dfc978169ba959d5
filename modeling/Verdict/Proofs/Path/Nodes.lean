import Mathlib.Data.List.Basic
import Verdict.Path.Basic

/-!
# Values inside a value

Every value inside a value has a place: which child to take at each step down from the outermost
value. In the order of lists of numbers, a place comes before the places inside it, and the places
inside one child before those inside the next. So the places in increasing order are the document
from front to back, each value once.
-/

namespace Verdict.Path

/-! ## Children -/

theorem sizeOf_lt_of_mem_children {v w : Json} (h : w ∈ children v) : sizeOf w < sizeOf v := by
  cases v with
  | arr items =>
    have hmem := List.sizeOf_lt_of_mem (show w ∈ items from h)
    simp
    omega
  | obj members =>
    obtain ⟨⟨name, w⟩, hmem, rfl⟩ := List.mem_map.mp (show w ∈ members.map (·.2) from h)
    have hmem := List.sizeOf_lt_of_mem hmem
    simp at hmem ⊢
    omega
  | null => cases h
  | bool => cases h
  | num => cases h
  | str => cases h

/-- What holds of a value whenever it holds of its children holds of every value. -/
theorem children_induction {motive : Json → Prop}
    (step : ∀ v, (∀ w ∈ children v, motive w) → motive v) (v : Json) : motive v :=
  step v fun w _ => children_induction step w
termination_by sizeOf v
decreasing_by exact sizeOf_lt_of_mem_children ‹_›

theorem nodesOfItems_eq (items : List Json) : nodesOfItems items = items.flatMap nodes := by
  induction items with
  | nil => rfl
  | cons v items ih => simp [nodesOfItems, ih]

theorem nodesOfMembers_eq (members : List (String × Json)) :
    nodesOfMembers members = (members.map (·.2)).flatMap nodes := by
  induction members with
  | nil => rfl
  | cons member members ih => simp [nodesOfMembers, ih]

theorem nodes_eq (v : Json) : nodes v = v :: (children v).flatMap nodes := by
  cases v with
  | arr items => simp [nodes, children, nodesOfItems_eq]
  | obj members => simp only [nodes, children, nodesOfMembers_eq]
  | null => rfl
  | bool => rfl
  | num => rfl
  | str => rfl

theorem mem_nodes_self (v : Json) : v ∈ nodes v := by
  rw [nodes_eq]
  exact List.mem_cons_self

theorem nodes_subset_of_mem_children {v w : Json} (h : w ∈ children v) : nodes w ⊆ nodes v := by
  intro u hu
  rw [nodes_eq v]
  exact List.mem_cons_of_mem _ (List.mem_flatMap.mpr ⟨w, h, hu⟩)

/-! ## Places -/

def at? (v : Json) : List Nat → Option Json
  | [] => some v
  | i :: place => (children v)[i]?.bind (at? · place)

/-- The places of all values inside a value, itself included. -/
def places (v : Json) : List (List Nat) :=
  [] :: (children v).zipIdx.attach.flatMap fun child => (places child.1.1).map (child.1.2 :: ·)
termination_by sizeOf v
decreasing_by exact sizeOf_lt_of_mem_children (List.fst_mem_of_mem_zipIdx child.2)

theorem places_eq (v : Json) :
    places v = [] :: (children v).zipIdx.flatMap fun child =>
      (places child.1).map (child.2 :: ·) := by
  rw [places, List.flatMap_subtype (g := fun child => (places child.1).map (child.2 :: ·))
    fun _ _ => rfl, List.unattach_attach]

/-- `list` goes through the document of a value from front to back and meets each value once. -/
structure Enumerates (list : List (List Nat)) (v : Json) : Prop where
  increasing : list.Pairwise (· < ·)
  mem_iff : ∀ place, place ∈ list ↔ (at? v place).isSome = true

theorem places_increasing (v : Json) : (places v).Pairwise (· < ·) := by
  induction v using children_induction with
  | step v ih =>
    rw [places_eq, List.pairwise_cons, List.pairwise_flatMap]
    refine ⟨?_, ?_, ?_⟩
    · intro place hplace
      obtain ⟨child, -, hplace⟩ := List.mem_flatMap.mp hplace
      obtain ⟨rest, -, rfl⟩ := List.mem_map.mp hplace
      exact List.nil_lt_cons _ _
    · intro child hchild
      rw [List.pairwise_map]
      refine (ih child.1 (List.fst_mem_of_mem_zipIdx hchild)).imp ?_
      intro a b hab
      exact List.cons_lt_cons_iff.mpr (Or.inr ⟨rfl, hab⟩)
    · have hindex : (children v).zipIdx.Pairwise fun a b => a.2 < b.2 := by
        rw [← List.pairwise_map (R := (· < ·)), List.zipIdx_map_snd]
        exact List.pairwise_lt_range' 1
      refine hindex.imp ?_
      intro a b hab x hx y hy
      obtain ⟨_, -, rfl⟩ := List.mem_map.mp hx
      obtain ⟨_, -, rfl⟩ := List.mem_map.mp hy
      exact List.cons_lt_cons_iff.mpr (Or.inl hab)

theorem mem_places_iff (v : Json) (place : List Nat) :
    place ∈ places v ↔ (at? v place).isSome = true := by
  induction place generalizing v with
  | nil => simp [places_eq v, at?]
  | cons i place ih =>
    have hbelow : i :: place ∈ places v ↔ ∃ w, (children v)[i]? = some w ∧ place ∈ places w := by
      simp [places_eq v, List.mem_zipIdx_iff_getElem?]
    rw [hbelow, at?]
    cases (children v)[i]? with
    | none => simp
    | some w => simpa using ih w

theorem places_enumerates (v : Json) : Enumerates (places v) v :=
  ⟨places_increasing v, mem_places_iff v⟩

theorem nodes_eq_places (v : Json) : nodes v = (places v).filterMap (at? v) := by
  induction v using children_induction with
  | step v ih =>
    have hchild : ∀ child ∈ (children v).zipIdx,
        ((places child.1).map (child.2 :: ·)).filterMap (at? v) = nodes child.1 := by
      intro child hchild
      have hat : at? v ∘ (child.2 :: ·) = at? child.1 := by
        funext place
        simp [at?, List.mem_zipIdx_iff_getElem?.mp hchild]
      rw [List.filterMap_map, hat, ih child.1 (List.fst_mem_of_mem_zipIdx hchild)]
    calc
      nodes v = v :: (children v).flatMap nodes := nodes_eq v
      _ = v :: ((children v).zipIdx.map Prod.fst).flatMap nodes := by rw [List.zipIdx_map_fst]
      _ = v :: (children v).zipIdx.flatMap fun child =>
          ((places child.1).map (child.2 :: ·)).filterMap (at? v) := by
        rw [List.flatMap_map, List.flatMap_congr hchild]
      _ = (places v).filterMap (at? v) := by
        rw [places_eq, List.filterMap_cons, List.filterMap_flatMap]
        rfl

end Verdict.Path
