import Verdict.Proofs.Rule.Agreement
import Verdict.Proofs.Rule.Occasion

/-!
# Extents of dates

A date lies between two bounds exactly if it is neither earlier than the one nor later than the
other, as comparisons with the bounds say.  Bounds that are missing or no dates bound nothing.
-/

namespace Verdict

namespace Operator

open Check

variable {op op' : Operator} (daily : Bool) (i low high : Option Instant)

/-- To be inside is to be a date that is neither before the lower bound nor after the upper one. -/
theorem ofExtent_inside_iff (hop : op ∈ [between, includes]) :
    op.ofExtent daily i low high = true ↔ (∃ d, i = some d) ∧
      less.ofDates daily i low = false ∧ greater.ofDates daily i high = false := by
  have hparts : op.ofExtent daily i low high =
      (i.isSome && (!less.ofDates daily i low && !greater.ofDates daily i high)) := by
    have hoperator : op = between ∨ op = includes := by simpa using hop
    obtain rfl | rfl := hoperator
    all_goals
      cases i with
      | none => rfl
      | some i => cases low <;> cases high <;> rfl
  rw [hparts, Bool.and_eq_true, Bool.and_eq_true, Bool.not_eq_true', Bool.not_eq_true',
    Option.isSome_iff_exists]

/-- To be outside is to be a date that is not inside. -/
theorem ofExtent_outside_iff (hop : op ∈ [notBetween, notIncludes])
    (hop' : op' ∈ [between, includes]) : op.ofExtent daily i low high = true ↔
      (∃ d, i = some d) ∧ op'.ofExtent daily i low high = false := by
  have hparts : op.ofExtent daily i low high =
      (i.isSome && !op'.ofExtent daily i low high) := by
    have hoperator : op = notBetween ∨ op = notIncludes := by simpa using hop
    have hoperator' : op' = between ∨ op' = includes := by simpa using hop'
    obtain rfl | rfl := hoperator <;> obtain rfl | rfl := hoperator'
    all_goals cases i <;> rfl
  rw [hparts, Bool.and_eq_true, Bool.not_eq_true', Option.isSome_iff_exists]

theorem ofDates_none : op.ofDates daily i Option.none = false := by
  cases i <;> rfl

theorem verdict_bounds (hop : op.isTemporalExtent = true) (u l h : Option Json) :
    op.verdict daily u (some (.arr [l.getD .null, h.getD .null])) =
      op.ofExtent daily (instantOf u) (instantOf l) (instantOf h) := by
  rw [verdict_of_extent hop, instantOf_eq l, instantOf_eq h]
  rfl

end Operator

namespace Rule

open Check

/-! ## Rules that differ in what they compare -/

/-- The rule that compares other operands by another operator. -/
def asking (r : Rule) (as : Comparand) (op : Operator) (p right : Operand) : Rule :=
  (r.setOperator op).withOperands as (some p) (some right)

def within (r : Rule) (as : Comparand) (op : Operator) (p : Operand) (low high : Option Operand) :
    Rule :=
  r.asking as op p (.of (.between low high))

section Found

variable (tongue : ScopeId → String) (kind : Kind) (record : Json) (env : Environment)

/-- At all times an operand has some value, with the variables of a rule. -/
def Finds (r : Rule) (o : Option Operand) (v : Option Json) : Prop :=
  ∀ now, ∃ e, extend kind (tongue r.scope) now record env r.locals = .ok e ∧
    Operand.findBound kind (tongue r.scope) now record e o = .ok v

/-- The date of the value that an operand has at all times, or that this is no date. -/
def Reads (r : Rule) (o : Option Operand) (d : Option Instant) : Prop :=
  ∃ v, r.Finds tongue kind record env o v ∧ instantOf v = d

/-- At all times the rules that a rule depends on hold. -/
def Unhindered (r : Rule) : Prop :=
  ∀ now e, extend kind (tongue r.scope) now record env r.locals = .ok e →
    ∃ traces, interpretAll tongue now r.dependencies record e = .ok traces ∧
      traces.all (·.result) = true

theorem unhindered_of_independent {r : Rule} (h : r.dependencies = []) :
    r.Unhindered tongue kind record env := by
  intro now e _
  exact ⟨[], by rw [h]; rfl, rfl⟩

end Found

variable {r : Rule} {as : Comparand} {op : Operator} {p right : Operand}
  {low high o : Option Operand} {tongue : ScopeId → String} {kind : Kind} {record : Json}
  {env : Environment} {u v l h : Option Json}

theorem Finds.usable (hv : r.Finds tongue kind record env o v) : Operand.UsableBound o := by
  obtain ⟨e, -, hfound⟩ := hv default
  exact Operand.usable_of_findBound o hfound

theorem Finds.unique (hu : r.Finds tongue kind record env o u)
    (hv : r.Finds tongue kind record env o v) : u = v := by
  obtain ⟨e, he, hu⟩ := hu default
  obtain ⟨e', he', hv⟩ := hv default
  cases he.symm.trans he'
  exact Except.ok.inj (hu.symm.trans hv)

theorem Reads.unique {i j : Option Instant} (hi : r.Reads tongue kind record env o i)
    (hj : r.Reads tongue kind record env o j) : i = j := by
  obtain ⟨u, hu, rfl⟩ := hi
  obtain ⟨v, hv, rfl⟩ := hj
  rw [hu.unique hv]

/-- A bound that is not given has no date. -/
theorem Reads.missing {i : Option Instant} (hi : r.Reads tongue kind record env o i) :
    r.Reads tongue kind record env none none := by
  obtain ⟨v, hv, -⟩ := hi
  refine ⟨none, fun now => ?_, rfl⟩
  obtain ⟨e, he, -⟩ := hv now
  exact ⟨e, he, rfl⟩

/-- An operand without a date is as good as none. -/
theorem Reads.iff_missing (ho : r.Reads tongue kind record env o none) (j : Option Instant) :
    r.Reads tongue kind record env o j ↔ r.Reads tongue kind record env none j :=
  ⟨fun hj => ho.unique hj ▸ ho.missing, fun hj => ho.missing.unique hj ▸ ho⟩

theorem Finds.extent (hl : r.Finds tongue kind record env low l)
    (hh : r.Finds tongue kind record env high h) :
    r.Finds tongue kind record env (some (.of (.between low high)))
      (some (.arr [l.getD .null, h.getD .null])) := by
  intro now
  obtain ⟨e, he, hlow⟩ := hl now
  obtain ⟨e', he', hhigh⟩ := hh now
  cases he.symm.trans he'
  refine ⟨e, he, ?_⟩
  rw [Operand.findBound, Operand.of, Operand.find, Operand.findOrigin, hlow, hhigh]
  rfl

/-- Operands that read no day beside the current one have the same value at all times. -/
theorem reads_of_usable (hlocals : ∀ x ∈ r.locals, x.2.Usable)
    (hvariables : r.locals.all (·.2.isTimeless) = true) (ho : Operand.UsableBound o)
    (hday : Operand.isTimelessBound o = true) : ∃ i, r.Reads tongue kind record env o i := by
  obtain ⟨e, he⟩ : ∃ e, extend kind (tongue r.scope) default record env r.locals = .ok e :=
    extend_isOk hlocals
  obtain ⟨v, hv⟩ := Operand.findBound_isOk kind (tongue r.scope) default record e o ho
  refine ⟨instantOf v, v, fun now => ⟨e, ?_, ?_⟩, rfl⟩
  · rw [← he]
    exact extend_congr kind rfl (.inl hvariables) record env
  · rw [← hv]
    exact Operand.findBound_congr rfl o (.inl hday)

/-! ## Results of comparisons -/

theorem readsNoDay_within_iff : (r.within as op p low high).readsNoDay = true ↔
    r.locals.all (·.2.isTimeless) = true ∧ p.isTimeless = true ∧
      Operand.isTimelessBound low = true ∧ Operand.isTimelessBound high = true := by
  rw [readsNoDay, Bool.and_eq_true, Bool.and_eq_true, and_assoc]
  exact and_congr_right fun _ => and_congr_right fun _ => Bool.and_eq_true_iff

/-- Comparisons of usable operands compile where the rule itself does. -/
theorem audit_asking_iff (hr : ∀ n ∈ r.nodes, n.Usable) (hkind : as.kind.isTemporal = true)
    (hop : op.isTemporalExtent = true ∨ op.isTemporal = true) :
    (r.asking as op p right).audit = .ok () ↔ p.Usable ∧ right.Usable := by
  have hnodes : (r.asking as op p right).nodes =
      r.asking as op p right :: nodesAll r.dependencies := by
    rw [nodes_eq]
    rfl
  rw [audit_eq_ok_iff, hnodes, List.forall_mem_cons]
  constructor
  · rintro ⟨⟨-, ⟨hnone, -⟩ | hsides⟩, -⟩
    · cases hnone
    · obtain ⟨_, hleft, hp⟩ := hsides.leftUsable
      cases hleft
      exact ⟨hp, hsides.rightUsable⟩
  · rintro ⟨hp, hright⟩
    rw [nodes_eq, List.forall_mem_cons, List.forall_mem_append] at hr
    refine ⟨⟨hr.1.locals, .inr ?_⟩, hr.2.2⟩
    exact
      { operator := by
          cases as with
          | values => cases hkind
          | dates => trivial
          | times => exact (Comparand.admits_times_iff op).mpr hop
        leftUsable := ⟨p, rfl, hp⟩
        rightGiven := nofun
        rightUsable := hright
        pattern := fun has => by
          rw [has] at hkind
          cases hkind }

section Results

variable (hr : ∀ n ∈ r.nodes, n.Usable) (hkind : as.kind.isTemporal = true)
  (hfree : r.Unhindered tongue as.kind record env)

include hr hkind hfree

/-- Every evaluation of a comparison of dates comes to what its operator says about the values that
its operands have at all times. -/
theorem Occasion.result_asking (x : Occasion tongue (r.asking as op p right) record env)
    (hop : op.isTemporalExtent = true ∨ op.isTemporal = true)
    (hu : r.Finds tongue as.kind record env (some p) u)
    (hv : r.Finds tongue as.kind record env (some right) v) :
    x.result = .ok (op.verdict (as.kind == .date) u v) := by
  obtain ⟨e, he, hleft⟩ := hu x.now
  obtain ⟨e', he', hright⟩ := hv x.now
  cases he.symm.trans he'
  have hkinds : (r.asking as op p right).kind = as.kind :=
    Test.kind_compare as (some p) (some right)
  have hweighs : x.Weighs u v :=
    { compiles := x.compiles_iff.mpr ((audit_asking_iff hr hkind hop).mpr ⟨hu.usable, hv.usable⟩)
      found := by
        rw [hkinds]
        exact ⟨e, ⟨by rw [hkinds]; exact he, hfree x.now e he⟩, hleft, hright⟩ }
  exact hweighs.result_eq hkind rfl

/-- All comparisons with a bound, if there is one, fail exactly if the operator says so about the
date of the bound. -/
theorem bounded_iff (hop : op.isTemporal = true)
    (hvariables : r.locals.all (·.2.isTimeless) = true) (hday : Operand.isTimelessBound o = true)
    {i : Option Instant} (hi : r.Reads tongue as.kind record env (some p) i)
    (y : ∀ b, o = some b → Occasion tongue (r.asking as op p b) record env) :
    (∀ b hb, (y b hb).result = .ok false) ↔
      ∃ j, r.Reads tongue as.kind record env o j ∧
        op.ofDates (as.kind == .date) i j = false := by
  cases o with
  | none =>
    -- nothing is compared, and the bound has no date
    exact iff_of_true nofun ⟨none, hi.missing, Operator.ofDates_none _ _⟩
  | some b =>
    have hextent : op.isTemporalExtent = false := by
      revert hop
      cases op <;> decide
    have hvalue : ∀ j, r.Reads tongue as.kind record env (some b) j →
        (y b rfl).result = .ok (op.ofDates (as.kind == .date) i j) := by
      rintro _ ⟨v, hv, rfl⟩
      obtain ⟨u, hu, rfl⟩ := hi
      rw [← Operator.verdict_of_not_extent hextent]
      exact (y b rfl).result_asking hr hkind hfree (.inr hop) hu hv
    constructor
    · intro hfalse
      -- what has a result compiles, so the bound has a value
      have hresult := hfalse b rfl
      have hb : b.Usable := ((audit_asking_iff hr hkind (.inr hop)).mp
        ((y b rfl).compiles_iff.mp (Occasion.compiles_of_result hresult))).2
      obtain ⟨j, hj⟩ := reads_of_usable (o := some b) (hr r (mem_nodes_self r)).locals hvariables
        hb hday
      exact ⟨j, hj, Except.ok.inj ((hvalue j hj).symm.trans hresult)⟩
    · rintro ⟨j, hj, hfalse⟩ b' hb
      cases hb
      rw [hvalue j hj, hfalse]

/-- An extent has a result exactly if all of its operands have values, and then it is what the
operator says about the dates of these. -/
theorem result_within_iff (hop : op.isTemporalExtent = true)
    (hday : (r.within as op p low high).readsNoDay = true)
    (x : Occasion tongue (r.within as op p low high) record env) {b : Bool} :
    x.result = .ok b ↔ ∃ i l h, r.Reads tongue as.kind record env (some p) i ∧
      r.Reads tongue as.kind record env low l ∧ r.Reads tongue as.kind record env high h ∧
        op.ofExtent (as.kind == .date) i l h = b := by
  have hvalue : ∀ i l h, r.Reads tongue as.kind record env (some p) i →
      r.Reads tongue as.kind record env low l → r.Reads tongue as.kind record env high h →
        x.result = .ok (op.ofExtent (as.kind == .date) i l h) := by
    rintro _ _ _ ⟨u, hu, rfl⟩ ⟨l, hl, rfl⟩ ⟨h, hh, rfl⟩
    rw [← Operator.verdict_bounds _ hop]
    exact x.result_asking hr hkind hfree (.inl hop) hu (hl.extent hh)
  constructor
  · intro hresult
    obtain ⟨hp, ⟨hlow, hhigh⟩, -⟩ := (audit_asking_iff hr hkind (.inl hop)).mp
      (x.compiles_iff.mp (Occasion.compiles_of_result hresult))
    obtain ⟨hvariables, hpoint, hlow', hhigh'⟩ := readsNoDay_within_iff.mp hday
    have hreads : ∀ o, Operand.UsableBound o → Operand.isTimelessBound o = true →
        ∃ i, r.Reads tongue as.kind record env o i :=
      fun o => reads_of_usable (hr r (mem_nodes_self r)).locals hvariables
    obtain ⟨i, hi⟩ := hreads (some p) hp hpoint
    obtain ⟨l, hl⟩ := hreads low hlow hlow'
    obtain ⟨h, hh⟩ := hreads high hhigh hhigh'
    exact ⟨i, l, h, hi, hl, hh, Except.ok.inj ((hvalue i l h hi hl hh).symm.trans hresult)⟩
  · rintro ⟨i, l, h, hi, hl, hh, rfl⟩
    exact hvalue i l h hi hl hh

/-- What the bounds have for dates decides what an extent comes to. -/
theorem result_within_congr {low' high' : Option Operand} (hop : op.isTemporalExtent = true)
    (hday : (r.within as op p low high).readsNoDay = true)
    (hday' : (r.within as op p low' high').readsNoDay = true)
    (hlow : ∀ j, r.Reads tongue as.kind record env low j ↔ r.Reads tongue as.kind record env low' j)
    (hhigh : ∀ j,
      r.Reads tongue as.kind record env high j ↔ r.Reads tongue as.kind record env high' j)
    (x : Occasion tongue (r.within as op p low high) record env)
    (y : Occasion tongue (r.within as op p low' high') record env) {b : Bool} :
    x.result = .ok b ↔ y.result = .ok b := by
  rw [result_within_iff hr hkind hfree hop hday x, result_within_iff hr hkind hfree hop hday' y]
  simp only [hlow, hhigh]

end Results

/-- Let a rule compile, and let the rules that it depends on hold.  Where it compares with an extent
and reads no day beside the current one, it says that a value is inside exactly if the value is a
date, and comparisons with the bounds, at any times, say that it is neither earlier than the lower
nor later than the upper one; and it says that a value is outside exactly if the value is a date and
not inside.  A bound that is no date is as good as none to either. -/
theorem extents_agree (hr : ∀ n ∈ r.nodes, n.Usable) (hkind : as.kind.isTemporal = true)
    (hfree : r.Unhindered tongue as.kind record env)
    (hday : (r.within as .between p low high).readsNoDay = true)
    (x : (op : Operator) → Occasion tongue (r.within as op p low high) record env)
    (lower : ∀ b, low = some b → Occasion tongue (r.asking as .less p b) record env)
    (upper : ∀ b, high = some b → Occasion tongue (r.asking as .greater p b) record env) :
    let reads := r.Reads tongue as.kind record env
    let dated := ∃ i, reads (some p) (some i)
    let notBefore := ∀ b hb, (lower b hb).result = .ok false
    let notAfter := ∀ b hb, (upper b hb).result = .ok false
    (∀ op ∈ [.between, .includes], (x op).result = .ok true ↔ dated ∧ notBefore ∧ notAfter) ∧
    (∀ op ∈ [.notBetween, .notIncludes], ∀ op' ∈ [.between, .includes],
      (x op).result = .ok true ↔ dated ∧ (x op').result = .ok false) ∧
    (reads low none → (dated → notBefore) ∧ ∀ op, op.isTemporalExtent = true → ∀ b,
      ∀ y : Occasion tongue (r.within as op p none high) record env,
        (x op).result = .ok b ↔ y.result = .ok b) ∧
    (reads high none → (dated → notAfter) ∧ ∀ op, op.isTemporalExtent = true → ∀ b,
      ∀ y : Occasion tongue (r.within as op p low none) record env,
        (x op).result = .ok b ↔ y.result = .ok b) := by
  obtain ⟨hvariables, hpoint, hlow, hhigh⟩ := readsNoDay_within_iff.mp hday
  have hinside : ∀ op ∈ [Operator.between, .includes], op.isTemporalExtent = true := by decide
  have houtside : ∀ op ∈ [Operator.notBetween, .notIncludes], op.isTemporalExtent = true := by
    decide
  have hextent := fun (op : Operator) (hop : op.isTemporalExtent = true) (b : Bool) =>
    result_within_iff (b := b) hr hkind hfree hop hday (x op)
  intro reads dated notBefore notAfter
  have hbefore := fun {i} (hi : reads (some p) i) =>
    bounded_iff hr hkind hfree rfl hvariables hlow hi lower
  have hafter := fun {i} (hi : reads (some p) i) =>
    bounded_iff hr hkind hfree rfl hvariables hhigh hi upper
  refine ⟨?_, ?_, ?_, ?_⟩
  · intro op hop
    rw [hextent op (hinside op hop)]
    constructor
    · rintro ⟨i, l, h, hi, hl, hh, hholds⟩
      obtain ⟨⟨d, rfl⟩, hless, hgreater⟩ := (Operator.ofExtent_inside_iff _ _ _ _ hop).mp hholds
      exact ⟨⟨d, hi⟩, (hbefore hi).mpr ⟨l, hl, hless⟩, (hafter hi).mpr ⟨h, hh, hgreater⟩⟩
    · rintro ⟨⟨d, hd⟩, hlower, hupper⟩
      obtain ⟨l, hl, hless⟩ := (hbefore hd).mp hlower
      obtain ⟨h, hh, hgreater⟩ := (hafter hd).mp hupper
      exact ⟨some d, l, h, hd, hl, hh,
        (Operator.ofExtent_inside_iff _ _ _ _ hop).mpr ⟨⟨d, rfl⟩, hless, hgreater⟩⟩
  · intro op hop op' hop'
    rw [hextent op (houtside op hop), hextent op' (hinside op' hop')]
    constructor
    · rintro ⟨i, l, h, hi, hl, hh, hholds⟩
      obtain ⟨⟨d, rfl⟩, hnot⟩ := (Operator.ofExtent_outside_iff _ _ _ _ hop hop').mp hholds
      exact ⟨⟨d, hi⟩, some d, l, h, hi, hl, hh, hnot⟩
    · rintro ⟨⟨d, hd⟩, i, l, h, hi, hl, hh, hnot⟩
      cases hi.unique hd
      exact ⟨some d, l, h, hd, hl, hh,
        (Operator.ofExtent_outside_iff _ _ _ _ hop hop').mpr ⟨⟨d, rfl⟩, hnot⟩⟩
  · intro hnone
    refine ⟨fun ⟨d, hd⟩ => (hbefore hd).mpr ⟨none, hnone, Operator.ofDates_none _ _⟩, ?_⟩
    intro op hop b y
    have hday' : (r.within as op p none high).readsNoDay = true :=
      readsNoDay_within_iff.mpr ⟨hvariables, hpoint, rfl, hhigh⟩
    exact result_within_congr hr hkind hfree hop hday hday' hnone.iff_missing
      (fun _ => Iff.rfl) (x op) y
  · intro hnone
    refine ⟨fun ⟨d, hd⟩ => (hafter hd).mpr ⟨none, hnone, Operator.ofDates_none _ _⟩, ?_⟩
    intro op hop b y
    have hday' : (r.within as op p low none).readsNoDay = true :=
      readsNoDay_within_iff.mpr ⟨hvariables, hpoint, hlow, rfl⟩
    exact result_within_congr hr hkind hfree hop hday hday' (fun _ => Iff.rfl)
      hnone.iff_missing (x op) y

/-- One o'clock in the morning is on the day of a lower bound at noon, so it is not earlier than
that, and an upper bound that is no date does not keep it out. -/
theorem extents_agree_at_noon :
    let r := of ⟨0⟩ (.compare .dates none none) .between
    let p := Operand.of (.env "day")
    let noon := Operand.literal (.str "2024-03-01T12:00:00Z")
    let never := Operand.literal (.str "never")
    let env := [("day", Json.str "2024-03-01T01:00:00Z")]
    let tongue := ({} : Session).tongue
    ∃ (x : (op : Operator) → Occasion tongue (r.within .dates op p (some noon) (some never))
        .null env) (y : Occasion tongue (r.asking .dates .greater p never) .null env),
      (x .between).result = .ok true ∧ ¬ (x .notIncludes).result = .ok true ∧
        y.result = .ok false := by
  intro r p noon never env tongue
  let ask := fun (op : Operator) (right : Operand) =>
    Occasion.first (r.asking .dates op p right) (fun n hn => List.mem_singleton.mp hn ▸ rfl)
      default .null env
  let x := fun (op : Operator) => ask op (.of (.between (some noon) (some never)))
  let lower := fun (b : Operand) (_ : some noon = some b) => ask .less b
  let upper := fun (b : Operand) (_ : some never = some b) => ask .greater b
  have hr : ∀ n ∈ r.nodes, n.Usable := (audit_eq_ok_iff r).mp rfl
  obtain ⟨hinside, houtside, -, hunbounded⟩ := extents_agree hr rfl
    (unhindered_of_independent tongue .date .null env rfl) rfl x lower upper
  have hdate : (instantOf (some (.str "2024-03-01T01:00:00Z"))).isSome = true := by
    decide
  obtain ⟨i, hi⟩ := Option.isSome_iff_exists.mp hdate
  have hpoint : r.Reads tongue .date .null env (some p) (some i) :=
    ⟨_, fun _ => ⟨env, rfl, rfl⟩, hi⟩
  have hnever : r.Reads tongue .date .null env (some never) none :=
    ⟨_, fun _ => ⟨env, rfl, rfl⟩, by decide⟩
  have hlower : (lower noon rfl).result = .ok false :=
    toOption_eq_some_iff.mp (by decide)
  have hupper := (hunbounded hnever).1 ⟨i, hpoint⟩
  have hbetween : (x .between).result = .ok true := by
    refine (hinside .between (by decide)).mpr ⟨⟨i, hpoint⟩, fun b hb => ?_, hupper⟩
    cases hb
    exact hlower
  refine ⟨x, upper never rfl, hbetween, fun houter => ?_, hupper never rfl⟩
  obtain ⟨-, hnot⟩ := (houtside .notIncludes (by decide) .between (by decide)).mp houter
  cases hbetween.symm.trans hnot

end Rule

end Verdict
