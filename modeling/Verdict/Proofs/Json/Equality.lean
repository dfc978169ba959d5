import Mathlib
import Verdict.Json.Order
import Verdict.Proofs.Decimal.Whole
import Verdict.Proofs.Json.Members
import Verdict.Proofs.Path.Nodes

/-!
# Equality of values

Values are compared from the outside in, down to an equality of numbers.  Documents are the same
when their numbers are, kinds included.  They agree when their numbers denote the same doubles.
Both relations are symmetric, and a pair of documents is the same exactly if it agrees and no number in
the one stands where another spelling of it stands in the other.
-/

namespace Verdict

open Decimal

/-! ## Numbers -/

namespace Number

def agrees (m n : Number) : Bool :=
  m.toFloat == n.toFloat

/-- Two spellings of one double: an integer and a double, or two integers that are rounded to the
same double. -/
def Twins (m n : Number) : Prop :=
  m.agrees n = true ∧ m.same n = false

theorem toFloat_ne_nan (n : Number) : n.toFloat ≠ Float.nan := by
  cases n with
  | int n =>
    have h := isNaN_ofInt n
    rwa [Float.isNaN_eq_decide_eq_nan, decide_eq_false_iff_not] at h
  | float x finite =>
    rintro rfl
    exact absurd finite (by decide)

theorem agrees_self (n : Number) : n.agrees n = true :=
  Float.beq_self_iff.mpr n.toFloat_ne_nan

theorem agrees_comm (m n : Number) : m.agrees n = n.agrees m :=
  BEq.comm

theorem agrees_trans {l m n : Number} (hlm : l.agrees m = true) (hmn : m.agrees n = true) :
    l.agrees n = true :=
  BEq.trans hlm hmn

theorem agrees_of_same {m n : Number} (h : m.same n = true) : m.agrees n = true := by
  cases m with
  | int m =>
    cases n with
    | int n =>
      obtain rfl : m = n := eq_of_beq h
      exact agrees_self _
    | float y _ => cases h
  | float x _ =>
    cases n with
    | int n => cases h
    | float y _ => exact h

theorem same_comm (m n : Number) : m.same n = n.same m := by
  cases m with
  | int m =>
    cases n with
    | int n => exact BEq.comm
    | float y _ => rfl
  | float x _ =>
    cases n with
    | int n => rfl
    | float y _ => exact BEq.comm

end Number

/-! ## Members -/

namespace Members

variable {α β : Type} {R : α → β → Prop} {ms : Members α} {ns : Members β}

theorem value?_rel_of_forall₂ (hnames : names ms = names ns)
    (h : List.Forall₂ R (ms.map (·.2)) (ns.map (·.2))) (name : String) :
    Option.Rel R (value? name ms) (value? name ns) := by
  induction ms generalizing ns with
  | nil =>
    cases ns with
    | nil => exact .none
    | cons n ns => cases hnames
  | cons m ms ih =>
    cases ns with
    | nil => cases hnames
    | cons n ns =>
      obtain ⟨k, v⟩ := m
      obtain ⟨j, w⟩ := n
      obtain ⟨rfl, htail⟩ : k = j ∧ names ms = names ns := List.cons.inj hnames
      obtain ⟨hvw, hrest⟩ := List.forall₂_cons.mp h
      rw [value?_cons, value?_cons]
      split
      · exact .some hvw
      · exact ih htail hrest

theorem forall₂_of_value?_rel (hnodup : (names ms).Nodup) (hnames : names ms = names ns)
    (h : ∀ name, Option.Rel R (value? name ms) (value? name ns)) :
    List.Forall₂ R (ms.map (·.2)) (ns.map (·.2)) := by
  induction ms generalizing ns with
  | nil =>
    cases ns with
    | nil => exact .nil
    | cons n ns => cases hnames
  | cons m ms ih =>
    cases ns with
    | nil => cases hnames
    | cons n ns =>
      obtain ⟨k, v⟩ := m
      obtain ⟨j, w⟩ := n
      obtain ⟨rfl, htail⟩ : k = j ∧ names ms = names ns := List.cons.inj hnames
      obtain ⟨hk, hnodup⟩ := List.nodup_cons.mp hnodup
      refine List.forall₂_cons.mpr ⟨?_, ih hnodup htail fun name => ?_⟩
      · have hvw := h k
        rw [value?_cons, value?_cons, if_pos rfl, if_pos rfl] at hvw
        cases hvw with
        | some hvw => exact hvw
      · by_cases hname : k = name
        · subst hname
          rw [value?_eq_none_iff.mpr hk, value?_eq_none_iff.mpr (htail ▸ hk)]
          exact .none
        · have hname' := h name
          rwa [value?_cons, value?_cons, if_neg hname, if_neg hname] at hname'

theorem isSome_eq_of_rel {x : Option α} {y : Option β} (h : Option.Rel R x y) :
    x.isSome = y.isSome := by
  cases h <;> rfl

/-- Members in order are the same names with related values exactly if every name is bound in both
to related values or in neither. -/
theorem forall₂_iff_value? (hms : Sorted ms) (hns : Sorted ns) :
    names ms = names ns ∧ List.Forall₂ R (ms.map (·.2)) (ns.map (·.2)) ↔
      ∀ name, Option.Rel R (value? name ms) (value? name ns) := by
  refine ⟨fun h => value?_rel_of_forall₂ h.1 h.2, fun h => ?_⟩
  have hnames : names ms = names ns := by
    apply hms.eq_of_mem_iff hns
    intro name
    rw [mem_names_iff, mem_names_iff, isSome_eq_of_rel (h name)]
  exact ⟨hnames, forall₂_of_value?_rel hms.nodup hnames h⟩

end Members

namespace Json

variable {eq finer : Number → Number → Bool} {a b c v w : Json} {as bs : List Json}
  {ms ns : List (String × Json)}

/-! ## Documents -/

mutual
def sameBy (eq : Number → Number → Bool) : Json → Json → Bool
  | null, null => true
  | bool p, bool q => p == q
  | num m, num n => eq m n
  | str s, str t => s == t
  | arr as, arr bs => sameItemsBy eq as bs
  | obj ms, obj ns => sameMembersBy eq ms ns
  | _, _ => false

def sameItemsBy (eq : Number → Number → Bool) : List Json → List Json → Bool
  | [], [] => true
  | a :: as, b :: bs => a.sameBy eq b && sameItemsBy eq as bs
  | _, _ => false

def sameMembersBy (eq : Number → Number → Bool) :
    List (String × Json) → List (String × Json) → Bool
  | [], [] => true
  | (j, a) :: ms, (k, b) :: ns => j == k && a.sameBy eq b && sameMembersBy eq ms ns
  | _, _ => false
end

mutual
theorem same_eq_sameBy : (a b : Json) → a.same b = a.sameBy Number.same b
  | arr as, arr bs => same_arr as bs
  | obj ms, obj ns => same_obj ms ns
  | null, b => by cases b <;> rfl
  | bool _, b => by cases b <;> rfl
  | num _, b => by cases b <;> rfl
  | str _, b => by cases b <;> rfl
  | arr _, null | arr _, bool _ | arr _, num _ | arr _, str _ | arr _, obj _ => rfl
  | obj _, null | obj _, bool _ | obj _, num _ | obj _, str _ | obj _, arr _ => rfl

theorem same_arr : (as bs : List Json) → (arr as).same (arr bs) = sameItemsBy Number.same as bs
  | [], [] => rfl
  | [], _ :: _ => rfl
  | _ :: _, [] => rfl
  | a :: as, b :: bs => congrArg₂ and (same_eq_sameBy a b) (same_arr as bs)

theorem same_obj : (ms ns : List (String × Json)) →
    (obj ms).same (obj ns) = sameMembersBy Number.same ms ns
  | [], [] => rfl
  | [], _ :: _ => rfl
  | _ :: _, [] => rfl
  | (j, a) :: ms, (k, b) :: ns =>
    congrArg₂ and (congrArg ((j == k) && ·) (same_eq_sameBy a b)) (same_obj ms ns)
end

theorem sameItemsBy_iff :
    sameItemsBy eq as bs = true ↔ List.Forall₂ (fun v w => v.sameBy eq w = true) as bs := by
  induction as generalizing bs with
  | nil => cases bs <;> simp [sameItemsBy]
  | cons a as ih => cases bs <;> simp [sameItemsBy, ih]

theorem sameMembersBy_iff :
    sameMembersBy eq ms ns = true ↔ Members.names ms = Members.names ns ∧
      List.Forall₂ (fun v w => v.sameBy eq w = true) (ms.map (·.2)) (ns.map (·.2)) := by
  induction ms generalizing ns with
  | nil => cases ns <;> simp [sameMembersBy, Members.names]
  | cons m ms ih =>
    cases ns with
    | nil => simp [sameMembersBy, Members.names]
    | cons n ns => simp [sameMembersBy, Members.names, ih, and_assoc, and_left_comm]

/-! ## Places -/

def topBy (eq : Number → Number → Bool) : Json → Json → Bool
  | null, null => true
  | bool p, bool q => p == q
  | num m, num n => eq m n
  | str s, str t => s == t
  | arr _, arr _ => true
  | obj ms, obj ns => Members.names ms == Members.names ns
  | _, _ => false

theorem sameBy_iff_children :
    a.sameBy eq b = true ↔ a.topBy eq b = true ∧
      List.Forall₂ (fun v w => v.sameBy eq w = true) (Path.children a) (Path.children b) := by
  cases a <;> cases b <;>
    simp [sameBy, topBy, Path.children, sameItemsBy_iff, sameMembersBy_iff]

theorem forall₂_iff_getElem? {α β : Type} {R : α → β → Prop} {xs : List α} {ys : List β} :
    List.Forall₂ R xs ys ↔ ∀ i : Nat, Option.Rel R xs[i]? ys[i]? := by
  constructor
  · intro h
    induction h with
    | nil => exact fun _ => .none
    | cons hxy _ ih =>
      intro i
      cases i with
      | zero => exact .some hxy
      | succ i => exact ih i
  · intro h
    induction xs generalizing ys with
    | nil =>
      cases ys with
      | nil => exact .nil
      | cons y ys => exact nomatch h 0
    | cons x xs ih =>
      cases ys with
      | nil => exact nomatch h 0
      | cons y ys =>
        cases h 0 with
        | some hxy => exact .cons hxy (ih fun i => h (i + 1))

theorem rel_congr {α β : Type} {R S : α → β → Prop} {x : Option α} {y : Option β}
    (h : ∀ v w, x = some v → y = some w → (R v w ↔ S v w)) :
    Option.Rel R x y ↔ Option.Rel S x y := by
  cases x with
  | none => cases y <;> simp
  | some v =>
    cases y with
    | none => simp
    | some w => simp [h v w rfl rfl]

/-- Either both have a value at the place, with equal tops, or neither has one. -/
def MatchAt (eq : Number → Number → Bool) (a b : Json) (place : List Nat) : Prop :=
  Option.Rel (fun v w => v.topBy eq w = true) (Path.at? a place) (Path.at? b place)

theorem matchAt_nil : MatchAt eq a b [] ↔ a.topBy eq b = true := by
  simp [MatchAt, Path.at?]

theorem matchAt_cons (i : Nat) :
    (∀ place, MatchAt eq a b (i :: place)) ↔
      Option.Rel (fun v w => ∀ place, MatchAt eq v w place)
        (Path.children a)[i]? (Path.children b)[i]? := by
  simp only [MatchAt, Path.at?]
  cases (Path.children a)[i]? <;> cases (Path.children b)[i]?
  · simp
  · simpa using ⟨[], by simp [Path.at?]⟩
  · simpa using ⟨[], by simp [Path.at?]⟩
  · simp

/-- Whether documents are the same is settled place by place, so that they inherit what holds of the
equality of their numbers. -/
theorem sameBy_iff_matchAt : a.sameBy eq b = true ↔ ∀ place, MatchAt eq a b place := by
  induction a using Path.children_induction generalizing b with
  | step a ih =>
    calc
      a.sameBy eq b = true
        ↔ a.topBy eq b = true ∧ ∀ i : Nat, Option.Rel (fun v w => v.sameBy eq w = true)
            (Path.children a)[i]? (Path.children b)[i]? := by
          rw [sameBy_iff_children, forall₂_iff_getElem?]
      _ ↔ a.topBy eq b = true ∧ ∀ i : Nat, Option.Rel (fun v w => ∀ place, MatchAt eq v w place)
            (Path.children a)[i]? (Path.children b)[i]? :=
          and_congr_right fun _ => forall_congr' fun i =>
            rel_congr fun v w hv _ => ih v (List.mem_of_getElem? hv)
      _ ↔ MatchAt eq a b [] ∧ ∀ i place, MatchAt eq a b (i :: place) := by
          simp only [matchAt_nil, matchAt_cons]
      _ ↔ ∀ place, MatchAt eq a b place := by
          refine ⟨fun h place => ?_, fun h => ⟨h [], fun i place => h (i :: place)⟩⟩
          cases place with
          | nil => exact h.1
          | cons i place => exact h.2 i place

/-! ## Symmetry and transitivity -/

theorem topBy_comm (heq : ∀ m n, eq m n = eq n m) (a b : Json) : a.topBy eq b = b.topBy eq a := by
  cases a <;> cases b <;> simp [topBy, heq, BEq.comm]

theorem matchAt_comm (heq : ∀ m n, eq m n = eq n m) {place : List Nat} :
    MatchAt eq a b place ↔ MatchAt eq b a place := by
  simp only [MatchAt]
  cases Path.at? a place <;> cases Path.at? b place <;> simp [topBy_comm heq]

theorem sameBy_comm (heq : ∀ m n, eq m n = eq n m) (a b : Json) :
    a.sameBy eq b = b.sameBy eq a := by
  rw [Bool.eq_iff_iff, sameBy_iff_matchAt, sameBy_iff_matchAt]
  exact forall_congr' fun _ => matchAt_comm heq

theorem topBy_trans (heq : ∀ {l m n}, eq l m = true → eq m n = true → eq l n = true)
    (hab : a.topBy eq b = true) (hbc : b.topBy eq c = true) : a.topBy eq c = true := by
  cases a <;> cases b <;> cases c <;> simp_all [topBy]
  exact heq hab hbc

theorem sameBy_trans (heq : ∀ {l m n}, eq l m = true → eq m n = true → eq l n = true)
    (hab : a.sameBy eq b = true) (hbc : b.sameBy eq c = true) : a.sameBy eq c = true := by
  rw [sameBy_iff_matchAt] at *
  intro place
  have hab := hab place
  have hbc := hbc place
  rw [MatchAt] at *
  generalize Path.at? a place = u at *
  generalize Path.at? b place = v at *
  generalize Path.at? c place = w at *
  cases hab with
  | none => exact hbc
  | some hab =>
    cases hbc with
    | some hbc => exact .some (topBy_trans heq hab hbc)

/-! ## Coarser and finer -/

theorem topBy_iff_of_finer (hfiner : ∀ {m n}, finer m n = true → eq m n = true) :
    a.topBy finer b = true ↔
      a.topBy eq b = true ∧ ∀ m n, a = num m → b = num n → finer m n = true := by
  cases a <;> cases b <;> simp [topBy]
  exact hfiner

/-- The finer relation holds where the coarser one does and all numbers that stand at one place of
both are in the finer relation. -/
theorem sameBy_iff_of_finer (hfiner : ∀ {m n}, finer m n = true → eq m n = true) :
    a.sameBy finer b = true ↔ a.sameBy eq b = true ∧
      ∀ place m n, Path.at? a place = some (num m) → Path.at? b place = some (num n) →
        finer m n = true := by
  have hplace (place : List Nat) : MatchAt finer a b place ↔ MatchAt eq a b place ∧
      ∀ m n, Path.at? a place = some (num m) → Path.at? b place = some (num n) →
        finer m n = true := by
    simp only [MatchAt]
    cases Path.at? a place <;> cases Path.at? b place <;> simp [topBy_iff_of_finer hfiner]
  rw [sameBy_iff_matchAt, sameBy_iff_matchAt, ← forall_and]
  exact forall_congr' hplace

/-! ## Strict equality -/

theorem same_comm (a b : Json) : a.same b = b.same a := by
  rw [same_eq_sameBy, same_eq_sameBy, sameBy_comm Number.same_comm]

theorem equal_comm (a b : Json) : a.equal b = b.equal a := by
  cases a <;> cases b <;> first | exact same_comm _ _ | exact Number.agrees_comm _ _

def agrees (a b : Json) : Bool :=
  a.sameBy Number.agrees b

theorem agrees_comm (a b : Json) : a.agrees b = b.agrees a :=
  sameBy_comm Number.agrees_comm a b

theorem agrees_trans (hab : a.agrees b = true) (hbc : b.agrees c = true) : a.agrees c = true :=
  sameBy_trans Number.agrees_trans hab hbc

theorem agrees_at {place : List Nat} {m n : Number} (h : a.agrees b = true)
    (hm : Path.at? a place = some (num m)) (hn : Path.at? b place = some (num n)) :
    m.agrees n = true := by
  have hplace : MatchAt Number.agrees a b place := sameBy_iff_matchAt.mp h place
  rw [MatchAt, hm, hn] at hplace
  cases hplace with
  | some htop => exact htop

/-- Inside the two values, no number stands where another spelling of it stands in the other. -/
def Untwinned (a b : Json) : Prop :=
  ∀ place m n, place ≠ [] → Path.at? a place = some (num m) → Path.at? b place = some (num n) →
    ¬m.Twins n

theorem Untwinned.symm (h : a.Untwinned b) : b.Untwinned a := by
  intro place m n hplace hm hn htwins
  apply h place n m hplace hn hm
  exact ⟨Number.agrees_comm n m ▸ htwins.1, Number.same_comm n m ▸ htwins.2⟩

theorem Untwinned.child {i : Nat} (h : a.Untwinned b) (ha : (Path.children a)[i]? = some v)
    (hb : (Path.children b)[i]? = some w) : v.Untwinned w := by
  intro place m n _ hm hn
  apply h (i :: place) m n (List.cons_ne_nil i place)
  · rw [Path.at?, ha]
    exact hm
  · rw [Path.at?, hb]
    exact hn

theorem untwinned_num (m n : Number) : (num m).Untwinned (num n) := by
  intro place k l hplace hk
  cases place with
  | nil => contradiction
  | cons i place => cases hk

theorem same_iff (h : ∀ m n, a = num m → b ≠ num n) :
    a.same b = true ↔ a.agrees b = true ∧ a.Untwinned b := by
  rw [same_eq_sameBy, sameBy_iff_of_finer Number.agrees_of_same]
  refine and_congr_right fun hagrees => ⟨fun hsame => ?_, fun huntwinned => ?_⟩
  · intro place m n _ hm hn htwins
    have hmn := hsame place m n hm hn
    rw [htwins.2] at hmn
    contradiction
  · intro place m n hm hn
    have hplace : place ≠ [] := by
      rintro rfl
      exact h m n (Option.some.inj hm) (Option.some.inj hn)
    by_contra hmn
    apply huntwinned place m n hplace hm hn
    exact ⟨agrees_at hagrees hm hn, Bool.not_eq_true _ ▸ hmn⟩

/-- Equality sees the spelling of a number inside a value, and only there. -/
theorem equal_iff : a.equal b = true ↔ a.agrees b = true ∧ a.Untwinned b := by
  cases a with
  | num m =>
    cases b with
    | num n => exact ⟨fun h => ⟨h, untwinned_num m n⟩, And.left⟩
    | _ => exact same_iff nofun
  | _ => exact same_iff nofun

end Json

end Verdict
