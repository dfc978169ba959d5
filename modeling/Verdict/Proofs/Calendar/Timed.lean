import Verdict.Calendar.Shift
import Verdict.Proofs.Calendar.Written

/-!
# Leap seconds end minutes

Whatever a value is read as, and wherever it is shifted from there, a fraction that fills a second
occurs in the last second of a minute only.  So all dates that come up can be written.
-/

namespace Verdict

open Calendar

namespace Instant

theorem ofParts?_eq_some {day : Int} {second nano : Nat} {i : Instant}
    (h : ofParts? day second nano = some i) : i.day = day ∧ i.second = second ∧ i.nano = nano := by
  unfold ofParts? at h
  split at h
  · cases h
    exact ⟨rfl, rfl, rfl⟩
  · cases h

theorem timed_of_lt {i : Instant} (h : i.nano < nanosPerSecond) : i.Timed := by
  intro hleap
  rw [inLeapSecond, decide_eq_true_iff] at hleap
  omega

theorem timed_ofParts? {day : Int} {second nano : Nat} {i : Instant}
    (h : ofParts? day second nano = some i) (hleap : nanosPerSecond ≤ nano → second % 60 = 59) :
    i.Timed := by
  obtain ⟨-, hsecond, hnano⟩ := ofParts?_eq_some h
  intro hle
  rw [inLeapSecond, decide_eq_true_iff, hnano] at hle
  rw [hsecond]
  exact hleap hle

theorem timed_ofNanos? {day nanos : Int} {i : Instant} (h : ofNanos? day nanos = some i) :
    i.Timed := by
  obtain ⟨-, -, hnano⟩ := ofParts?_eq_some h
  refine timed_of_lt ?_
  rw [hnano]
  unfold nanosPerSecond
  omega

end Instant

namespace Calendar

open Decimal Text

/-! ## Reading -/

theorem natOf_lt {ds : List Char} (h : ∀ c ∈ ds, isDigit c = true) : natOf ds < 10 ^ ds.length := by
  have hfold : ∀ n, ds.foldl (fun n c => 10 * n + (c.toNat - '0'.toNat)) n <
      (n + 1) * 10 ^ ds.length := by
    induction ds with
    | nil =>
      intro n
      simp
    | cons c ds ih =>
      intro n
      rw [List.forall_mem_cons] at h
      have hc : 48 ≤ c.toNat ∧ c.toNat ≤ 57 := by
        simpa [isDigit_eq, Char.isDigit, UInt32.le_iff_toNat_le] using h.1
      have hvalue : c.toNat - '0'.toNat ≤ 9 := by
        change c.toNat - 48 ≤ 9
        omega
      calc
        ds.foldl _ (10 * n + (c.toNat - '0'.toNat))
            < (10 * n + (c.toNat - '0'.toNat) + 1) * 10 ^ ds.length := ih h.2 _
        _ ≤ (n + 1) * 10 * 10 ^ ds.length := Nat.mul_le_mul_right _ (by omega)
        _ = (n + 1) * 10 ^ (ds.length + 1) := by rw [Nat.mul_assoc, Nat.pow_succ']
  have h0 := hfold 0
  rwa [Nat.zero_add, Nat.one_mul] at h0

theorem fraction_lt {cs rest : List Char} {nano : Nat} (h : fraction cs = some (nano, rest)) :
    nano < nanosPerSecond := by
  unfold fraction at h
  split at h
  · rename_i cs
    dsimp only at h
    split at h
    · cases h
    · cases h
      have hdigits : ∀ c ∈ (cs.takeWhile isDigit).take 9, isDigit c = true :=
        fun c hc => List.mem_takeWhile_imp (List.mem_of_mem_take hc)
      have hlength : ((cs.takeWhile isDigit).take 9).length ≤ 9 := List.length_take_le _ _
      generalize (cs.takeWhile isDigit).take 9 = kept at hdigits hlength ⊢
      calc
        natOf kept * tenTo (9 - kept.length)
            < 10 ^ kept.length * 10 ^ (9 - kept.length) :=
          Nat.mul_lt_mul_of_pos_right (natOf_lt hdigits) (Nat.pow_pos (by decide))
        _ = nanosPerSecond := by
          rw [← Nat.pow_add, Nat.add_sub_cancel' hlength]
          rfl
  · cases h
    decide

theorem offset_spec {cs rest : List Char} {east : Int} (h : offset cs = some (east, rest)) :
    east % 60 = 0 := by
  unfold offset at h
  dsimp only at h
  split at h
  case h_1 | h_2 =>
    cases h
    rfl
  case h_6 => cases h
  all_goals
    obtain ⟨⟨hours, cs⟩, -, h⟩ := Option.bind_eq_some_iff.mp h
    obtain ⟨cs, -, h⟩ := Option.bind_eq_some_iff.mp h
    obtain ⟨⟨minutes, cs⟩, -, h⟩ := Option.bind_eq_some_iff.mp h
    dsimp only at h
    split at h
    · cases h
    · cases h
      omega

theorem timed_readStandard {cs : List Char} {i : Instant} (h : readStandard cs = some i) :
    i.Timed := by
  unfold readStandard at h
  obtain ⟨⟨year, cs⟩, -, h⟩ := Option.bind_eq_some_iff.mp h
  obtain ⟨cs, -, h⟩ := Option.bind_eq_some_iff.mp h
  obtain ⟨⟨month, cs⟩, -, h⟩ := Option.bind_eq_some_iff.mp h
  obtain ⟨cs, -, h⟩ := Option.bind_eq_some_iff.mp h
  obtain ⟨⟨day, cs⟩, -, h⟩ := Option.bind_eq_some_iff.mp h
  dsimp only at h
  split at h
  case h_2 => cases h
  split at h
  case isFalse => cases h
  obtain ⟨cs, -, h⟩ := Option.bind_eq_some_iff.mp h
  obtain ⟨⟨hour, cs⟩, -, h⟩ := Option.bind_eq_some_iff.mp h
  obtain ⟨cs, -, h⟩ := Option.bind_eq_some_iff.mp h
  obtain ⟨⟨minute, cs⟩, -, h⟩ := Option.bind_eq_some_iff.mp h
  obtain ⟨cs, -, h⟩ := Option.bind_eq_some_iff.mp h
  obtain ⟨⟨second, cs⟩, -, h⟩ := Option.bind_eq_some_iff.mp h
  obtain ⟨⟨nano, cs⟩, hfraction, h⟩ := Option.bind_eq_some_iff.mp h
  obtain ⟨⟨east, cs⟩, hoffset, h⟩ := Option.bind_eq_some_iff.mp h
  dsimp only at h
  split at h
  · cases h
  obtain ⟨date, -, h⟩ := Option.bind_eq_some_iff.mp h
  obtain ⟨⟨secs, nano⟩, hsecs, h⟩ := Option.bind_eq_some_iff.mp h
  have heast := offset_spec hoffset
  have hspec := secondOfDay?_spec (fraction_lt hfraction) hsecs
  refine Instant.timed_ofParts? h fun hleap => ?_
  have hminute := hspec.2 hleap
  have hwrap : ((secs : Int) - east).emod secondsPerDay = (secs - east) % 86400 := rfl
  rw [hwrap]
  omega

theorem timed_readAs {timed : Bool} {ds : List Directive} {cs : List Char} {i : Instant}
    (h : readAs timed ds cs = some i) : i.Timed := by
  unfold readAs at h
  obtain ⟨f, -, h⟩ := Option.bind_eq_some_iff.mp h
  obtain ⟨date, -, h⟩ := Option.bind_eq_some_iff.mp h
  cases timed with
  | false => exact Instant.timed_ofParts? h (by decide)
  | true =>
    obtain ⟨⟨second, nano⟩, htime, h⟩ := Option.bind_eq_some_iff.mp h
    obtain ⟨half, -, htime⟩ := Option.bind_eq_some_iff.mp htime
    obtain ⟨hour, -, htime⟩ := Option.bind_eq_some_iff.mp htime
    obtain ⟨minute, -, htime⟩ := Option.bind_eq_some_iff.mp htime
    exact Instant.timed_ofParts? h (secondOfDay?_spec (by decide) htime).2

theorem timed_read {text : String} {i : Instant} (h : read text = some i) : i.Timed := by
  have hor : ∀ {a : Option Instant} {b : Unit → Option Instant}, a.orElse b = some i →
      a = some i ∨ b () = some i := by
    intro a b hab
    cases a with
    | none => exact .inr hab
    | some j => exact .inl hab
  rcases hor h with h | h
  · exact timed_readStandard h
  rcases hor h with h | h
  · exact timed_readAs h
  rcases hor h with h | h
  · exact timed_readAs h
  · exact timed_readAs h

end Calendar

open Calendar

theorem Json.timed_instant? {v : Json} {i : Instant} (h : v.instant? = some i) : i.Timed := by
  unfold Json.instant? at h
  split at h
  · exact timed_read h
  · dsimp only at h
    split at h
    · exact Instant.timed_ofNanos? h
    · cases h
  · cases h

/-! ## Shifting -/

namespace Calendar

theorem timed_addNanos {i j : Instant} {d : Int} (hi : i.Timed) (h : addNanos i d = some j) :
    j.Timed := by
  unfold addNanos at h
  dsimp only at h
  split at h
  · rename_i hleap
    split at h
    · exact Instant.timed_ofNanos? h
    · split at h
      · exact Instant.timed_ofNanos? h
      · exact Instant.timed_ofParts? h fun _ => hi hleap
  · exact Instant.timed_ofNanos? h

theorem timed_addMonths {i j : Instant} {months : Int} (hi : i.Timed)
    (h : addMonths i months = some j) : j.Timed := by
  unfold addMonths at h
  split at h
  · cases h
    exact hi
  split at h
  · cases h
  obtain ⟨day, -, h⟩ := Option.bind_eq_some_iff.mp h
  refine Instant.timed_ofParts? h fun hleap => hi ?_
  rw [Instant.inLeapSecond, decide_eq_true_iff]
  exact hleap

theorem timed_shift {i j : Instant} {amount : Json} {sign : Int} (hi : i.Timed)
    (h : shift i amount sign = some j) : j.Timed := by
  unfold shift at h
  split at h
  · dsimp only at h
    split at h
    · cases h
    split at h
    · cases h
    obtain ⟨ms, -, h⟩ := Option.bind_eq_some_iff.mp h
    split at h
    · cases h
    · exact timed_addNanos hi h
  · obtain ⟨months, -, h⟩ := Option.bind_eq_some_iff.mp h
    obtain ⟨moved, hmoved, h⟩ := Option.bind_eq_some_iff.mp h
    obtain ⟨seconds, -, h⟩ := Option.bind_eq_some_iff.mp h
    exact timed_addNanos (timed_addMonths hi hmoved) h
  · cases h

end Calendar

end Verdict
