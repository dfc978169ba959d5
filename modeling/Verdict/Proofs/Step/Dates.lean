import Verdict.Proofs.Calendar.Timed
import Verdict.Proofs.Operand.Meaning

/-!
# Steps on dates

What adding to a date writes, and subtracting from it, only depends on the instant that is read from
a value.  It is a text, from which later steps read the new instant as long as its year has four
digits in UTC, and no date otherwise.  Moved by nothing, a date is written as itself.
-/

namespace Verdict

open Calendar Decimal

/-! ## Values -/

namespace Json

/-- What a date is written as is read as that date, or not at all. -/
theorem instant?_ofInstant {v : Json} {i : Instant} (h : v.instant? = some i) :
    (ofInstant i).instant? = if i.InFourDigits then some i else none :=
  read_write (timed_instant? h)

end Json

/-! ## Nothing as an amount -/

namespace Calendar

def IsZero (x : Float) : Prop :=
  x = 0 ∨ x = -0

/-- An amount that moves a date by nothing: zero, or an object whose numbers are all zero. -/
def Nought : Json → Prop
  | .obj fields => ∀ name n, Members.value? name fields = some (.num n) → IsZero n.toFloat
  | v => ∃ x, v.number? = some x ∧ IsZero x

theorem mantissa_ofFloat {x : Float} (hx : IsZero x) : (Binary.ofFloat x).mantissa = 0 := by
  rcases hx with rfl | rfl <;> rfl

theorem isFinite_of_isZero {x : Float} (hx : IsZero x) : x.isFinite = true := by
  rcases hx with rfl | rfl <;> rfl

theorem ratio_pos (b : Binary) : 0 < b.ratio.2 := by
  unfold Binary.ratio
  split
  · exact Nat.one_pos
  · exact Nat.pow_pos (by decide)

theorem ratio_of_mantissa {b : Binary} (h : b.mantissa = 0) : b.ratio.1 = 0 := by
  unfold Binary.ratio
  split
  · exact (congrArg (· * _) h).trans (Nat.zero_mul _)
  · exact h

theorem truncate_of_mantissa {b : Binary} (h : b.mantissa = 0) : b.truncate = 0 := by
  change (if b.negative then -((b.ratio.1 / b.ratio.2 : Nat) : Int) else
    (b.ratio.1 / b.ratio.2 : Nat)) = 0
  rw [ratio_of_mantissa h, Nat.zero_div]
  split <;> rfl

theorem roundHalfAway_of_mantissa {b : Binary} (h : b.mantissa = 0) : b.roundHalfAway = 0 := by
  have hpos := ratio_pos b
  have hzero : (2 * b.ratio.1 + b.ratio.2) / (2 * b.ratio.2) = 0 := by
    rw [ratio_of_mantissa h]
    exact Nat.div_eq_of_lt (by omega)
  change (if b.negative then -(((2 * b.ratio.1 + b.ratio.2) / (2 * b.ratio.2) : Nat) : Int) else
    ((2 * b.ratio.1 + b.ratio.2) / (2 * b.ratio.2) : Nat)) = 0
  rw [hzero]
  split <;> rfl

theorem addNanos_zero (i : Instant) : addNanos i 0 = some i := by
  have hsecond := i.second_lt
  have hnano := i.nano_lt
  unfold secondsPerDay at hsecond
  rw [addNanos]
  simp only [Int.zero_tdiv, Int.zero_tmod, Int.add_zero]
  split
  · rw [if_neg (by omega), if_neg (by omega), Int.toNat_natCast]
    exact i.ofParts?_self
  · rename_i hleap
    rw [Instant.inLeapSecond, decide_eq_true_iff] at hleap
    rw [← i.ofParts?_self, Instant.ofNanos?]
    unfold secondsPerDay nanosPerSecond at *
    congr 1
    · change i.day + (i.second * 1000000000 + i.nano : Int) / (86400 * 1000000000) = i.day
      omega
    · change ((i.second * 1000000000 + i.nano : Int) % (86400 * 1000000000) / 1000000000).toNat =
        i.second
      omega
    · change ((i.second * 1000000000 + i.nano : Int) % (86400 * 1000000000) % 1000000000).toNat =
        i.nano
      omega

theorem whole?_of_isZero {x : Float} (hx : IsZero x) : whole? x = some 0 := by
  rw [whole?, if_pos (isFinite_of_isZero hx), truncate]
  dsimp only
  rw [truncate_of_mantissa (mantissa_ofFloat hx)]
  rfl

theorem shift_number {n : Number} (hn : IsZero n.toFloat) (i : Instant) (sign : Int) :
    shift i (.num n) sign = some i := by
  have hproduct : IsZero (n.toFloat * 1000) := by
    rcases hn with h | h <;> rw [h]
    · exact .inl rfl
    · exact .inr rfl
  simp only [shift, isFinite_of_isZero hproduct,
    roundHalfAway_of_mantissa (mantissa_ofFloat hproduct)]
  rw [Int.zero_mul]
  exact addNanos_zero i

theorem part_eq_zero {fields : Members Json} (h : Nought (.obj fields)) (name : String) :
    part fields name = some 0 := by
  unfold part
  split
  · rename_i n hn
    exact whole?_of_isZero (h name n hn)
  · rfl

theorem shift_parts {fields : Members Json} (h : Nought (.obj fields)) (i : Instant) (sign : Int) :
    shift i (.obj fields) sign = some i := by
  have hmonths : months? fields sign = some 0 := by
    simp only [months?, part_eq_zero h, Option.bind_eq_bind, Option.bind_some]
    rw [show int64? (0 * 12) = some 0 from rfl, Option.bind_some,
      show int64? (0 + 0) = some 0 from rfl, Option.bind_some, Int.zero_mul]
    rfl
  have hseconds : seconds? fields sign = some 0 := by
    simp only [seconds?, List.foldlM, part_eq_zero h, Option.bind_eq_bind, Option.bind_some,
      Int.zero_mul]
    rfl
  rw [shift, hmonths, hseconds]
  exact addNanos_zero i

end Calendar

/-! ## Steps -/

namespace Action

/-- The amount that a date is moved by: text counts as the number that it spells. -/
def amountOf : Json → Option Json
  | .obj fields => some (.obj fields)
  | .num n => some (.num n)
  | v => v.number?.map Json.ofFloat

theorem offset_dated {kind : Kind} {v : Json} (hkind : kind.isTemporal = true) (amount : Json)
    (sign : Int) : offset kind amount sign v =
      ((do shift (← v.instant?) (← amountOf amount) sign).map Json.ofInstant).getD .null := by
  rw [offset, hkind, Bool.true_or, if_pos rfl]
  rcases v.instant? with _ | i
  · cases amount <;> rfl
  cases amount with
  | obj | num =>
    simp only [amountOf, Option.bind_eq_bind, Option.bind_some]
    cases shift i _ sign <;> rfl
  | str text =>
    simp only [amountOf, Option.bind_eq_bind, Option.bind_some]
    cases (Json.str text).number?.map Json.ofFloat with
    | none => rfl
    | some delta =>
      simp only [Option.bind_some]
      cases shift i delta sign <;> rfl
  | null | bool | arr => rfl

inductive Moves : Action → Json → Int → Prop
  | add (amount : Json) : Moves (add amount) amount 1
  | subtract (amount : Json) : Moves (subtract amount) amount (-1)

variable {kind : Kind} {locale : String} {a : Action} {amount : Json} {sign : Int} {v : Json}

theorem Moves.apply_eq (h : Moves a amount sign) (tool : Tool) :
    a.apply kind locale tool v = offset kind amount sign v := by
  cases h <;> rfl

theorem Moves.tool_eq (h : Moves a amount sign) : a.tool = .ok .none := by
  cases h <;> rfl

/-- What an action writes unless it writes null: a date that it has moved. -/
theorem Moves.shifts (h : Moves a amount sign) (hkind : kind.isTemporal = true) {tool : Tool}
    (hresult : a.apply kind locale tool v ≠ .null) :
    ∃ i delta j, v.instant? = some i ∧ amountOf amount = some delta ∧
      shift i delta sign = some j ∧ a.apply kind locale tool v = .ofInstant j := by
  rw [h.apply_eq, offset_dated hkind] at hresult ⊢
  rcases hshifted : (do shift (← v.instant?) (← amountOf amount) sign) with _ | j
  · rw [hshifted] at hresult
    exact absurd rfl hresult
  · obtain ⟨i, hi, hrest⟩ := Option.bind_eq_some_iff.mp hshifted
    obtain ⟨delta, hdelta, hj⟩ := Option.bind_eq_some_iff.mp hrest
    refine ⟨i, delta, j, hi, hdelta, hj, ?_⟩
    rw [hshifted]
    rfl

theorem amountOf_nought (hnought : Nought amount) : ∃ delta, amountOf amount = some delta ∧
    ∀ i sign, shift i delta sign = some i := by
  cases amount with
  | obj fields => exact ⟨_, rfl, shift_parts hnought⟩
  | num n =>
    obtain ⟨x, hx, hzero⟩ := hnought
    cases hx
    exact ⟨_, rfl, shift_number hzero⟩
  | str text =>
    obtain ⟨x, hx, hzero⟩ := hnought
    have hdelta : Json.ofFloat x = .num (.int 0) := by
      have htruncate := truncate_of_mantissa (mantissa_ofFloat hzero)
      have hwhole : (Binary.ofFloat x).isWhole = true := by
        rw [Binary.isWhole, ratio_of_mantissa (mantissa_ofFloat hzero), Nat.zero_mod]
        rfl
      rw [Json.ofFloat, dif_pos (isFinite_of_isZero hzero)]
      simp only [hwhole, htruncate]
      rfl
    exact ⟨_, (congrArg (Option.map Json.ofFloat) hx).trans (congrArg some hdelta),
      shift_number (.inl rfl)⟩
  | null | bool | arr =>
    obtain ⟨x, hx, -⟩ := hnought
    cases hx

/-- Moved by nothing, a date is written as itself; what is no date becomes null. -/
theorem Moves.apply_nought (h : Moves a amount sign) (hkind : kind.isTemporal = true)
    (hnought : Nought amount) (tool : Tool) :
    a.apply kind locale tool v = (v.instant?.map Json.ofInstant).getD .null := by
  obtain ⟨delta, hdelta, hshift⟩ := amountOf_nought hnought
  rw [h.apply_eq, offset_dated hkind, hdelta]
  cases v.instant? with
  | none => rfl
  | some i => exact congrArg (fun o => (Option.map Json.ofInstant o).getD .null) (hshift i sign)

/-- Only the instant that is read from a value matters. -/
theorem Moves.apply_congr (h : Moves a amount sign) (hkind : kind.isTemporal = true) {v' : Json}
    (hv : v'.instant? = v.instant?) (tool : Tool) :
    a.apply kind locale tool v' = a.apply kind locale tool v := by
  rw [h.apply_eq, h.apply_eq, offset_dated hkind, offset_dated hkind, hv]

end Action

namespace Step

def Shifts (s : Step) : Prop :=
  s.whole = false ∧ ∃ amount sign, s.action.Moves amount sign

/-- A step that moves every value as a date, but by nothing. -/
def Idle (s : Step) : Prop :=
  s.whole = false ∧ ∃ amount sign, s.action.Moves amount sign ∧ Nought amount

theorem Idle.shifts {s : Step} (h : s.Idle) : s.Shifts :=
  h.imp_right fun ⟨amount, sign, hmoves, _⟩ => ⟨amount, sign, hmoves⟩

theorem Shifts.ready_eq {s : Step} (h : s.Shifts) : s.ready = .ok ⟨s, .none⟩ := by
  obtain ⟨-, amount, sign, hmoves⟩ := h
  rw [ready, hmoves.tool_eq]
  rfl

/-- What steps without tools make of a value, one after the other. -/
def runAll (kind : Kind) (locale : String) (steps : List Step) (v : Json) : Json :=
  steps.foldl (fun v s => s.action.apply kind locale .none v) v

variable {kind : Kind} {locale : String} {s : Step} {more : List Step} {v v' : Json}

theorem runAll_congr (hkind : kind.isTemporal = true) (hmore : ∀ s ∈ more, s.Shifts)
    (hne : more ≠ []) (hv : v'.instant? = v.instant?) :
    runAll kind locale more v' = runAll kind locale more v := by
  cases more with
  | nil => exact absurd rfl hne
  | cons s more =>
    obtain ⟨-, amount, sign, hmoves⟩ := hmore s List.mem_cons_self
    rw [runAll, runAll, List.foldl_cons, List.foldl_cons, hmoves.apply_congr hkind hv]

theorem instant?_runAll_congr (hkind : kind.isTemporal = true) (hmore : ∀ s ∈ more, s.Shifts)
    (hv : v'.instant? = v.instant?) :
    (runAll kind locale more v').instant? = (runAll kind locale more v).instant? := by
  by_cases hne : more = []
  · rw [hne]
    exact hv
  · rw [runAll_congr hkind hmore hne hv]

/-- An idle step does not change the instant that is read. -/
theorem Idle.instant?_apply (hs : s.Idle) (hkind : kind.isTemporal = true)
    (hv : ∀ i, v.instant? = some i → i.InFourDigits) :
    (s.action.apply kind locale .none v).instant? = v.instant? := by
  obtain ⟨-, amount, sign, hmoves, hnought⟩ := hs
  rw [hmoves.apply_nought hkind hnought]
  rcases hi : v.instant? with _ | i
  · rfl
  · exact (Json.instant?_ofInstant hi).trans (if_pos (hv i hi))

end Step

/-- Steps that move dates work on every value that comes out of the steps before them. -/
theorem Pipeline.apply_append {kind : Kind} {locale : String} (ready : List ReadyStep)
    {more : List Step} (hmore : ∀ s ∈ more, s.Shifts) (v : Option Json) :
    Pipeline.apply ⟨ready ++ more.map (⟨·, .none⟩), kind, locale⟩ v =
      (Pipeline.apply ⟨ready, kind, locale⟩ v).map (Step.runAll kind locale more) := by
  have hrun : ∀ values, (more.map fun s => (⟨s, .none⟩ : ReadyStep)).foldl
      (fun vs r => applyStep kind locale r vs) values =
        values.map (Step.runAll kind locale more) := by
    induction more with
    | nil => exact fun values => (List.map_id values).symm
    | cons s more ih =>
      intro values
      rw [List.forall_mem_cons] at hmore
      rw [List.map_cons, List.foldl_cons, ih hmore.2, applyStep, hmore.1.1]
      exact List.map_map
  unfold apply
  split
  · rfl
  · rfl
  · rw [List.foldl_append, hrun]
  · rw [List.foldl_append, hrun]

end Verdict
