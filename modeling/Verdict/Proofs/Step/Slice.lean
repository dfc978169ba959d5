import Mathlib
import Verdict.Step.Pipeline

/-!
# Slices

A slice has the elements of a list, or the characters of a text, whose positions lie between two
edges.  An edge is counted from either end and never lies beyond an end, so the two slices at one
edge make up the whole.
-/

namespace Verdict.Json

open Verdict.Action (sliceBounds sliceOf)

/-! ## What is sliced -/

def span : Json → Nat
  | arr items => items.length
  | v => v.form.length

/-- The elements whose positions lie from `low` on and below `high`, in their order. -/
def positioned {α : Type} (low high : Nat) (xs : List α) : List α :=
  (xs.zipIdx.filter fun x => decide (low ≤ x.2) && decide (x.2 < high)).map (·.1)

/-- What stands at the positions from `low` on and below `high`. -/
def between (low high : Nat) : Json → Json
  | arr items => arr (positioned low high items)
  | v => str (String.ofList (positioned low high v.form.toList))

def followedBy : Json → Json → Json
  | arr items, arr more => arr (items ++ more)
  | v, w => str (v.form ++ w.form)

def unsliced : Json → Json
  | arr items => arr items
  | v => str v.form

section Positions

variable {α : Type} (low high : Nat) (xs : List α)

theorem positioned_zipIdx (n : Nat) :
    ((xs.zipIdx n).filter fun x => decide (low ≤ x.2) && decide (x.2 < high)).map (·.1) =
      (xs.drop (low - n)).take (high - max low n) := by
  induction xs generalizing n with
  | nil => simp
  | cons x xs ih =>
    have hrest := ih (n + 1)
    rw [List.zipIdx_cons, List.filter_cons]
    by_cases hlow : low ≤ n
    · have hstart : low - n = 0 := by omega
      have hmax : max low n = n := by omega
      rw [show low - (n + 1) = 0 by omega, show max low (n + 1) = n + 1 by omega,
        List.drop_zero] at hrest
      by_cases hhigh : n < high
      · have hcount : high - n = high - (n + 1) + 1 := by omega
        simp [hlow, hhigh, hstart, hcount, hrest]
      · rw [show high - (n + 1) = 0 by omega, List.take_zero] at hrest
        have hcount : high - n = 0 := by omega
        simp [hhigh, hmax, hcount, hrest]
    · have hstart : low - n = low - (n + 1) + 1 := by omega
      have hmax : max low n = max low (n + 1) := by omega
      simp [hlow, hstart, hmax, hrest]

theorem positioned_eq : positioned low high xs = (xs.drop low).take (high - low) := by
  rw [positioned, positioned_zipIdx, Nat.sub_zero, Nat.max_zero]

theorem positioned_append (middle : Nat) :
    positioned 0 middle xs ++ positioned middle xs.length xs = xs := by
  rw [positioned_eq, positioned_eq, List.drop_zero, Nat.sub_zero, ← List.length_drop,
    List.take_length, List.take_append_drop]

end Positions

/-! ## Edges -/

/-- The edge that a position stands for in so many elements: counted from the end if it is
negative, and not beyond either end. -/
def edge (length : Nat) (i : Int) : Int :=
  max 0 (min (if i < 0 then length + i else i) length)

theorem edge_bounds (length : Nat) (i : Int) : 0 ≤ edge length i ∧ edge length i ≤ length := by
  unfold edge
  omega

/-- Both edges of a slice; one that would end before it starts is empty. -/
theorem sliceBounds_eq (length : Nat) (start stop : Option Int) :
    ((sliceBounds length start stop).1 : Int) = start.elim 0 (edge length) ∧
      ((sliceBounds length start stop).2 : Int) =
        max (start.elim 0 (edge length)) (stop.elim (length : Int) (edge length)) := by
  have hedge (i : Int) : ((if i < 0 then length - i.natAbs else Nat.min i.toNat length : Nat) : Int)
      = edge length i := by
    have hmin : Nat.min i.toNat length = min i.toNat length := rfl
    unfold edge
    rw [hmin]
    split_ifs <;> omega
  have hstart : (sliceBounds length start stop).1 = start.elim 0 (edge length) := by
    cases start with
    | none => rfl
    | some i => exact hedge i
  have hstop :
      ((sliceBounds length none stop).2 : Int) = stop.elim (length : Int) (edge length) := by
    cases stop with
    | none => exact congrArg Nat.cast (Nat.max_zero length)
    | some i => exact (congrArg Nat.cast (Nat.max_zero _)).trans (hedge i)
  have hhigh : (sliceBounds length start stop).2 =
      max (sliceBounds length none stop).2 (sliceBounds length start stop).1 :=
    congrArg (Nat.max · _) (Nat.max_zero _).symm
  refine ⟨hstart, ?_⟩
  rw [hhigh, Nat.cast_max, hstart, hstop, max_comm]

theorem sliceBounds_le (length : Nat) (start stop : Option Int) :
    (sliceBounds length start stop).1 ≤ (sliceBounds length start stop).2 ∧
      (sliceBounds length start stop).2 ≤ length := by
  obtain ⟨hlow, hhigh⟩ := sliceBounds_eq length start stop
  have hstart : start.elim 0 (edge length) ≤ length := by
    cases start with
    | none => exact Int.natCast_nonneg length
    | some i => exact (edge_bounds length i).2
  have hstop : stop.elim (length : Int) (edge length) ≤ length := by
    cases stop with
    | none => exact le_refl _
    | some i => exact (edge_bounds length i).2
  omega

theorem sliceBounds_split (length : Nat) (k : Int) :
    ∃ middle, sliceBounds length none (some k) = (0, middle) ∧
      sliceBounds length (some k) none = (middle, length) := by
  obtain ⟨hlow, hhigh⟩ := sliceBounds_eq length none (some k)
  obtain ⟨hlow', hhigh'⟩ := sliceBounds_eq length (some k) none
  have hedge := edge_bounds length k
  dsimp only [Option.elim] at hlow hhigh hlow' hhigh'
  have hfirst : (sliceBounds length none (some k)).1 = 0 := by omega
  have hshared : (sliceBounds length (some k) none).1 = (sliceBounds length none (some k)).2 := by
    omega
  have hlast : (sliceBounds length (some k) none).2 = length := by omega
  exact ⟨_, Prod.ext hfirst rfl, Prod.ext hshared hlast⟩

/-! ## Slices -/

theorem sliceOf_eq (start stop : Option Int) (v : Json) :
    sliceOf start stop v =
      v.between (sliceBounds v.span start stop).1 (sliceBounds v.span start stop).2 := by
  cases v with
  | arr items =>
    rw [between, positioned_eq]
    rfl
  | null | bool | num | str | obj =>
    rw [between, positioned_eq]
    · rfl
    · exact nofun

theorem between_followedBy (v : Json) (middle : Nat) :
    (v.between 0 middle).followedBy (v.between middle v.span) = v.unsliced := by
  have htext (s : String) : (str (String.ofList (positioned 0 middle s.toList))).followedBy
      (str (String.ofList (positioned middle s.length s.toList))) = str s := by
    rw [followedBy, form, form, ← String.ofList_append, ← String.length_toList,
      positioned_append, String.ofList_toList]
    exact nofun
  cases v with
  | arr items => exact congrArg arr (positioned_append items middle)
  | null | bool | num | str | obj => exact htext _

/-- A slice has what stands between its edges, which are where its positions say and lie inside
what is sliced.  The slice up to a position and the slice from there on are the whole. -/
theorem slice_exact (kind : Kind) (locale : String) (tool : Tool) (start stop : Option Int64)
    (v : Json) :
    ∃ low high,
      sliceBounds v.span (start.map Int64.toInt) (stop.map Int64.toInt) = (low, high) ∧
      low ≤ high ∧ high ≤ v.span ∧
      (low : Int) = (start.map Int64.toInt).elim 0 (edge v.span) ∧
      (high : Int) = max (low : Int) ((stop.map Int64.toInt).elim (v.span : Int) (edge v.span)) ∧
      (Action.slice start stop).apply kind locale tool v = v.between low high ∧
      ∀ k, ((Action.slice none (some k)).apply kind locale tool v).followedBy
        ((Action.slice (some k) none).apply kind locale tool v) = v.unsliced := by
  have happly (start stop : Option Int64) : (Action.slice start stop).apply kind locale tool v =
      sliceOf (start.map Int64.toInt) (stop.map Int64.toInt) v := by
    cases tool <;> rfl
  obtain ⟨hlow, hhigh⟩ :=
    sliceBounds_eq v.span (start.map Int64.toInt) (stop.map Int64.toInt)
  obtain ⟨hle, hspan⟩ := sliceBounds_le v.span (start.map Int64.toInt) (stop.map Int64.toInt)
  refine ⟨_, _, Prod.mk.eta.symm, hle, hspan, hlow, ?_, ?_, fun k => ?_⟩
  · rw [hlow, hhigh]
  · rw [happly, sliceOf_eq]
  · obtain ⟨middle, hbefore, hbehind⟩ := sliceBounds_split v.span k.toInt
    rw [happly, happly, sliceOf_eq, sliceOf_eq, Option.map_none, Option.map_some, hbefore,
      hbehind, between_followedBy]

/-- Positions at both ends of the range of 64 bits. -/
example : sliceBounds 4 (some (-0x8000000000000000)) (some 0x7fffffffffffffff) = (0, 4) := by
  decide

end Verdict.Json
