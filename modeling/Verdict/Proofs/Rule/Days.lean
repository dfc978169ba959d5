import Verdict.Proofs.Rule.Occasion

/-!
# Dates are days

Comparisons of dates see nothing of their operands but the days on which they fall in UTC, where
comparisons of times see instants.  By either, two dates are equal, or the one is earlier, or the
other one is.
-/

namespace Verdict

namespace Instant

/-- Two dates of one day, or twice no date. -/
def SameDay (i j : Option Instant) : Prop :=
  i.map (·.day) = j.map (·.day)

instance (i j : Option Instant) : Decidable (SameDay i j) :=
  inferInstanceAs (Decidable (_ = _))

theorem SameDay.none_or_some {i j : Option Instant} (h : SameDay i j) :
    i = none ∧ j = none ∨ ∃ a b, i = some a ∧ j = some b ∧ a.day = b.day := by
  cases i with
  | none =>
    cases j with
    | none => exact .inl ⟨rfl, rfl⟩
    | some b => cases h
  | some a =>
    cases j with
    | none => cases h
    | some b => exact .inr ⟨a, b, rfl, rfl, Option.some.inj h⟩

theorem SameDay.any_eq {f g : Instant → Bool} {i j : Option Instant} (h : SameDay i j)
    (hfg : ∀ a b, a.day = b.day → f a = g b) : i.any f = j.any g := by
  obtain ⟨rfl, rfl⟩ | ⟨a, b, rfl, rfl, hday⟩ := h.none_or_some
  · rfl
  · exact hfg a b hday

theorem SameDay.all_eq {f g : Instant → Bool} {i j : Option Instant} (h : SameDay i j)
    (hfg : ∀ a b, a.day = b.day → f a = g b) : i.all f = j.all g := by
  obtain ⟨rfl, rfl⟩ | ⟨a, b, rfl, rfl, hday⟩ := h.none_or_some
  · rfl
  · exact hfg a b hday

/-! ## Orders -/

theorem dayOrder_congr {i i' j j' : Instant} (hi : i.day = i'.day) (hj : j.day = j'.day) :
    i.dayOrder j = i'.dayOrder j' := by
  rw [dayOrder, dayOrder, hi, hj]

/-- The order of days is that of instants, except that instants of one day are alike. -/
theorem dayOrder_eq (i j : Instant) :
    i.dayOrder j = if i.day = j.day then .eq else i.order j := by
  rw [dayOrder, order]
  split
  · rename_i hday
    rw [compare_eq_iff_eq.mpr hday]
  · rename_i hday
    cases hcompare : compare i.day j.day with
    | eq => exact absurd (compare_eq_iff_eq.mp hcompare) hday
    | lt | gt => rfl

theorem order_eq_iff {i j : Instant} : i.order j = .eq ↔ i = j := by
  rw [order, Ordering.then_eq_eq, Ordering.then_eq_eq, compare_eq_iff_eq, compare_eq_iff_eq,
    compare_eq_iff_eq]
  constructor
  · rintro ⟨hday, hsecond, hnano⟩
    cases i
    cases j
    cases hday
    cases hsecond
    cases hnano
    rfl
  · rintro rfl
    exact ⟨rfl, rfl, rfl⟩

/-- An instant comes before another one by its day, or else its second, or else its fraction. -/
def Before (i j : Instant) : Prop :=
  i.day < j.day ∨ i.day = j.day ∧
    (i.second < j.second ∨ i.second = j.second ∧ i.nano < j.nano)

instance (i j : Instant) : Decidable (i.Before j) :=
  inferInstanceAs (Decidable (_ ∨ _))

theorem order_lt_iff {i j : Instant} : i.order j = .lt ↔ i.Before j := by
  rw [order, Ordering.then_eq_lt, Ordering.then_eq_lt, compare_lt_iff_lt, compare_lt_iff_lt,
    compare_lt_iff_lt, compare_eq_iff_eq, compare_eq_iff_eq]
  exact Iff.rfl

theorem order_gt_iff {i j : Instant} : i.order j = .gt ↔ j.Before i := by
  rw [← order_lt_iff, ← Ordering.swap_eq_lt, order, order, Ordering.swap_then, Ordering.swap_then,
    Int.compare_swap, Nat.compare_swap, Nat.compare_swap]

end Instant

namespace Operator

open Instant Check

section SameDay

variable (op : Operator) {i i' j j' low low' high high' : Option Instant}

theorem ofDates_of_sameDay (hi : SameDay i i') (hj : SameDay j j') :
    op.ofDates true i j = op.ofDates true i' j' := by
  refine hi.any_eq fun a a' ha => hj.any_eq fun b b' hb => ?_
  have horder : a.orderBy true b = a'.orderBy true b' := dayOrder_congr ha hb
  cases op <;> simp only [compareInstants, horder]

theorem ofExtent_of_sameDay (hi : SameDay i i') (hlow : SameDay low low')
    (hhigh : SameDay high high') :
    op.ofExtent true i low high = op.ofExtent true i' low' high' := by
  refine hi.any_eq fun a a' ha => ?_
  have hinside : a.inside true low high = a'.inside true low' high' := by
    refine congrArg₂ (· && ·) (hlow.all_eq fun b b' hb => ?_) (hhigh.all_eq fun b b' hb => ?_)
    · exact congrArg (· != .lt) (dayOrder_congr ha hb)
    · exact congrArg (· != .gt) (dayOrder_congr ha hb)
  cases op <;> first | exact hinside | exact congrArg not hinside

end SameDay

/-- The dates that an operator compares with: the bounds of an extent, or the other date. -/
def against (op : Operator) (v : Option Json) : List (Option Instant) :=
  if op.isTemporalExtent then [boundOf v 0, boundOf v 1] else [instantOf v]

/-- What an operator says about dates depends on their days only. -/
theorem verdict_of_sameDay {op : Operator} {u u' v v' : Option Json}
    (hu : SameDay (instantOf u) (instantOf u'))
    (hv : List.Forall₂ SameDay (op.against v) (op.against v')) :
    op.verdict true u v = op.verdict true u' v' := by
  cases hop : op.isTemporalExtent with
  | true =>
    rw [against, against, hop, if_pos rfl, if_pos rfl] at hv
    obtain _ | ⟨hlow, _ | ⟨hhigh, -⟩⟩ := hv
    rw [verdict_of_extent hop, verdict_of_extent hop]
    exact ofExtent_of_sameDay op hu hlow hhigh
  | false =>
    rw [against, against, hop, if_neg Bool.false_ne_true, if_neg Bool.false_ne_true] at hv
    obtain _ | ⟨hv, -⟩ := hv
    rw [verdict_of_not_extent hop, verdict_of_not_extent hop]
    exact ofDates_of_sameDay op hu hv

def ordering : List Operator := [equal, less, greater]

/-- Of two dates exactly one of the three holds. -/
theorem compareInstants_ordering (daily : Bool) (i j : Instant) : ∃ op ∈ ordering,
    ∀ op' ∈ ordering, op'.compareInstants daily i j = decide (op' = op) := by
  have hthree : ∀ {P : Operator → Prop}, P equal → P less → P greater → ∀ op ∈ ordering, P op := by
    intro P hequal hless hgreater
    simp only [ordering, List.forall_mem_cons]
    exact ⟨hequal, hless, hgreater, nofun⟩
  cases horder : i.orderBy daily j with
  | eq => exact ⟨equal, by decide, by apply hthree <;> simp [compareInstants, horder]⟩
  | lt => exact ⟨less, by decide, by apply hthree <;> simp [compareInstants, horder]⟩
  | gt => exact ⟨greater, by decide, by apply hthree <;> simp [compareInstants, horder]⟩

theorem beq_eq_decide {o o' : Ordering} {P : Prop} [Decidable P] (h : o = o' ↔ P) :
    (o == o') = decide P := by
  rw [Bool.beq_eq_decide_eq]
  exact decide_eq_decide.mpr h

theorem compareInstants_daily (i j : Instant) :
    equal.compareInstants true i j = decide (i.day = j.day) ∧
      less.compareInstants true i j = decide (i.day < j.day) ∧
      greater.compareInstants true i j = decide (j.day < i.day) :=
  ⟨beq_eq_decide compare_eq_iff_eq, beq_eq_decide compare_lt_iff_lt,
    beq_eq_decide compare_gt_iff_gt⟩

theorem compareInstants_exact (i j : Instant) :
    equal.compareInstants false i j = decide (i = j) ∧
      less.compareInstants false i j = decide (i.Before j) ∧
      greater.compareInstants false i j = decide (j.Before i) :=
  ⟨beq_eq_decide order_eq_iff, beq_eq_decide order_lt_iff, beq_eq_decide order_gt_iff⟩

end Operator

namespace Rule

open Instant Check
open Operator (ordering)

variable {tongue : ScopeId → String} {r : Rule} {as : Comparand} {left right : Option Operand}
  {record : Json} {env : Environment}

theorem Occasion.Weighs.result_of_dates {x : Occasion tongue r record env} {u v : Option Json}
    {i j : Instant} (hx : x.Weighs u v) (hkind : as.kind.isTemporal = true)
    (htest : r.test = .compare as left right) (hop : r.operator.isTemporalExtent = false)
    (hu : instantOf u = some i) (hv : instantOf v = some j) :
    x.result = .ok (r.operator.compareInstants (as.kind == .date) i j) := by
  have hgiven : left.isNone = false := by
    cases left with
    | some l => rfl
    | none =>
      obtain ⟨e, -, hfound, -⟩ := hx.found
      rw [Rule.left, htest] at hfound
      cases hfound
      cases hu
  rw [hx.result_eq hkind htest, hgiven, Operator.verdict_of_not_extent hop, hu, hv]
  rfl

/-- Two evaluations of a comparison of dates in which its operands find dates of the same days come
to the same.  Two dates are equal, or the first is earlier, or it is later: exactly one of the three
holds, where dates are compared by their days and times by instants.  The order of days is that of
instants but for instants of one day. -/
theorem dates_are_days (hkind : as.kind.isTemporal = true)
    (htest : r.test = .compare as left right) :
    (as = .dates → ∀ {tongue' : ScopeId → String} {record' : Json} {env' : Environment}
      (x : Occasion tongue r record env) (y : Occasion tongue' r record' env')
      (u u' v v' : Option Json), x.Weighs u v → y.Weighs u' v' →
      SameDay (instantOf u) (instantOf u') →
      List.Forall₂ SameDay (r.operator.against v) (r.operator.against v') →
      x.result = y.result) ∧
    ∀ (x : (op : Operator) → Occasion tongue (r.setOperator op) record env) (u v : Option Json)
      (i j : Instant), (∀ op ∈ ordering, (x op).Weighs u v) →
      instantOf u = some i → instantOf v = some j →
      (∃ op ∈ ordering, ∀ op' ∈ ordering, (x op').result = .ok (decide (op' = op))) ∧
      (as = .dates → (x .equal).result = .ok (decide (i.day = j.day)) ∧
        (x .less).result = .ok (decide (i.day < j.day)) ∧
        (x .greater).result = .ok (decide (j.day < i.day))) ∧
      (as = .times → (x .equal).result = .ok (decide (i = j)) ∧
        (x .less).result = .ok (decide (i.Before j)) ∧
        (x .greater).result = .ok (decide (j.Before i))) ∧
      i.dayOrder j = if i.day = j.day then .eq else i.order j := by
  constructor
  · rintro rfl tongue' record' env' x y u u' v v' hx hy hu hv
    rw [hx.result_eq hkind htest, hy.result_eq hkind htest]
    exact congrArg (fun b => Except.ok (left.isNone && right.isNone || b))
      (Operator.verdict_of_sameDay hu hv)
  · intro x u v i j hx hi hj
    have hresult : ∀ op ∈ ordering,
        (x op).result = .ok (op.compareInstants (as.kind == .date) i j) := by
      intro op hop
      have hextent : op.isTemporalExtent = false := by
        revert hop
        cases op <;> decide
      exact (hx op hop).result_of_dates hkind htest hextent hi hj
    refine ⟨?_, ?_, ?_, dayOrder_eq i j⟩
    · obtain ⟨op, hop, hone⟩ := Operator.compareInstants_ordering (as.kind == .date) i j
      exact ⟨op, hop, fun op' hop' => (hresult op' hop').trans (congrArg _ (hone op' hop'))⟩
    · rintro rfl
      obtain ⟨hequal, hless, hgreater⟩ := Operator.compareInstants_daily i j
      rw [← hequal, ← hless, ← hgreater]
      exact ⟨hresult _ (by decide), hresult _ (by decide), hresult _ (by decide)⟩
    · rintro rfl
      obtain ⟨hequal, hless, hgreater⟩ := Operator.compareInstants_exact i j
      rw [← hequal, ← hless, ← hgreater]
      exact ⟨hresult _ (by decide), hresult _ (by decide), hresult _ (by decide)⟩

/-- One o'clock in the morning, nine o'clock eight hours east of it and eleven o'clock at night are
on one day, so the latter two are no later than the first. -/
theorem dates_are_days_at_night :
    let tongue := ({} : Session).tongue
    let r := of ⟨0⟩ (.compare .dates (some (.of (.env "day")))
      (some (.literal (.str "2024-03-01T01:00:00Z")))) .greater
    let night := [("day", Json.str "2024-03-01T23:00:00Z")]
    let east := [("day", Json.str "2024-03-01T09:00:00+08:00")]
    ∃ (x : (op : Operator) → Occasion tongue (r.setOperator op) .null night)
      (y : Occasion tongue r .null east), (x .greater).result = y.result ∧
        (x .equal).result = .ok true ∧ (x .greater).result = .ok false := by
  intro tongue r night east
  have hcold : ∀ op, ∀ n ∈ (r.setOperator op).nodes, n.memo = none :=
    fun op n hn => List.mem_singleton.mp hn ▸ rfl
  let occasion := fun (op : Operator) (env : Environment) =>
    Occasion.first (r.setOperator op) (hcold op) default .null env
  have hweighs : ∀ (op : Operator) (v : Json),
      (occasion op [("day", v)]).Weighs (some v) (some (.str "2024-03-01T01:00:00Z")) :=
    fun op v =>
      { compiles := (occasion op [("day", v)]).compiles_iff.mpr (by cases op <;> rfl)
        found := ⟨_, ⟨rfl, [], rfl, rfl⟩, rfl, rfl⟩ }
  have htest : r.test = .compare .dates (some (.of (.env "day")))
      (some (.literal (.str "2024-03-01T01:00:00Z"))) := rfl
  have hday : SameDay (instantOf (some (.str "2024-03-01T23:00:00Z")))
      (instantOf (some (.str "2024-03-01T09:00:00+08:00"))) := by
    decide
  have hdates : (instantOf (some (.str "2024-03-01T23:00:00Z"))).any (fun i =>
      (instantOf (some (.str "2024-03-01T01:00:00Z"))).any fun j => i.day = j.day) = true := by
    decide
  rw [Option.any_eq_true] at hdates
  obtain ⟨i, hi, hdates⟩ := hdates
  rw [Option.any_eq_true] at hdates
  obtain ⟨j, hj, hsame⟩ := hdates
  obtain ⟨-, hdaily, -⟩ := (dates_are_days rfl htest).2 (occasion · night) _ _ i j
    (fun op _ => hweighs op _) hi hj
  obtain ⟨hequal, -, hgreater⟩ := hdaily rfl
  refine ⟨(occasion · night), occasion .greater east, ?_, ?_, ?_⟩
  · exact (dates_are_days rfl htest).1 rfl _ _ _ _ _ _ (hweighs .greater _) (hweighs .greater _)
      hday (.cons rfl .nil)
  · exact hequal.trans (congrArg Except.ok hsame)
  · have hnot : ¬ j.day < i.day := by
      have := of_decide_eq_true hsame
      omega
    exact hgreater.trans (congrArg Except.ok (decide_eq_false hnot))

end Rule

end Verdict
