import Mathlib.Tactic.Choose
import Verdict.Proofs.Rule.Run

/-!
# Checks in other sessions and at other times

All that a check reads of its session are caches, and those are transparent.  So it comes to the
same in all sound sessions, and at all times if it reads no day beside the current one.
-/

namespace Verdict

/-! ## Work that agrees -/

namespace Work

variable {α β γ : Type}

/-- Two pieces of work come to one result in all sound sessions. -/
def Agree (w w' : Work α) : Prop :=
  ∃ r, w.Yields r ∧ w'.Yields r

variable {w w' : Work α}

theorem Yields.agree {r : Except Fault α} (h : w.Yields r) : Agree w w :=
  ⟨r, h, h⟩

theorem agree_pure (a : α) : Agree (pure a) (pure a) :=
  (yields_pure a).agree

theorem Agree.bind {k k' : α → Work β} (hw : Agree w w') (hk : ∀ a, Agree (k a) (k' a)) :
    Agree (w >>= k) (w' >>= k') := by
  obtain ⟨r, hr, hr'⟩ := hw
  choose f hf hf' using hk
  exact ⟨r >>= f, hr.bind hf, hr'.bind hf'⟩

theorem agree_mapM {w w' : γ → Work α} (h : ∀ x, Agree (w x) (w' x)) (xs : List γ) :
    Agree (xs.mapM w) (xs.mapM w') := by
  choose f hf hf' using h
  exact ⟨xs.mapM f, yields_mapM hf xs, yields_mapM hf' xs⟩

theorem Agree.eq {s t : Session} (h : Agree w w') (hs : s.Sound) (ht : t.Sound) :
    (w s).1 = (w' t).1 := by
  obtain ⟨r, hr, hr'⟩ := h
  obtain ⟨_, hrun, -⟩ := hr s hs
  obtain ⟨_, hrun', -⟩ := hr' t ht
  rw [hrun, hrun']

end Work

open Work

/-! ## Checks and time -/

namespace Getter

def isTimeless : Getter → Bool
  | .day _ => false
  | .range inner => inner.isTimeless
  | .through inner _ _ => inner.isTimeless
  | .between low high => low.isTimeless && high.isTimeless
  | .absent | .record | .literal _ | .first _ | .every _ | .env _ => true

variable {now now' : Instant} {record : Json} {env : Environment}

theorem value_congr : (g : Getter) → (now = now' ∨ g.isTimeless = true) →
    g.value now record env = g.value now' record env
  | .absent, _ | .record, _ | .literal _, _ | .first _, _ | .every _, _ | .env _, _ => rfl
  | .day d, h => by
    rcases h with rfl | h
    · rfl
    · cases h
  | .range inner, h => by rw [value, value, value_congr inner h]
  | .between low high, h => by
    rw [isTimeless, Bool.and_eq_true] at h
    rw [value, value, value_congr low (h.imp_right And.left),
      value_congr high (h.imp_right And.right)]
  | .through inner pipeline plural, h => by rw [value, value, value_congr inner h]

end Getter

namespace Check

mutual
def isTimeless : Check → Bool
  | ⟨_, _, _, locals, dependencies, main⟩ =>
    locals.all (·.2.isTimeless) && isTimelessAll dependencies && isTimelessMain main

def isTimelessMain : Main → Bool
  | .pass => true
  | .compound children => isTimelessAll children
  | .iterate collection children => collection.isTimeless && isTimelessAll children
  | .values _ _ left right => left.isTimeless && right.isTimeless
  | .instants left right => left.isTimeless && right.isTimeless
  | .extent left right => left.isTimeless && right.isTimeless
  | .presence left => left.isTimeless

def isTimelessAll : List Check → Bool
  | [] => true
  | c :: rest => isTimeless c && isTimelessAll rest
end

section Run

variable {now now' : Instant}

theorem bind_congr {locals : List (String × Getter)}
    (h : now = now' ∨ locals.all (·.2.isTimeless) = true) (record : Json) (env : Environment) :
    bind now locals record env = bind now' locals record env := by
  have hvalues : resolve now locals record env = resolve now' locals record env := by
    refine congrArg Members.gather (List.map_congr_left fun l hl => ?_)
    have hl : now = now' ∨ l.2.isTimeless = true :=
      h.imp_right fun hall => List.all_eq_true.mp hall l hl
    simp only [Getter.value_congr l.2 hl]
  rw [bind, bind, hvalues]

theorem gate_agree (kind : Kind) (op : Operator) (env : Environment) (traces : List Trace)
    {main main' : Work Trace} (h : Agree main main') :
    Agree (gate kind op env traces main) (gate kind op env traces main') := by
  simp only [gate]
  split
  · exact h.bind fun _ => agree_pure _
  · exact agree_pure _

mutual
/-- A check comes to the same in all sound sessions, and at all times if it reads no other day. -/
theorem run_agree : (c : Check) → (now = now' ∨ c.isTimeless = true) → (record : Json) →
    (env : Environment) → Agree (c.run now record env) (c.run now' record env)
  | ⟨_, kind, op, locals, dependencies, main⟩, h, record, env => by
    rw [isTimeless, Bool.and_eq_true, Bool.and_eq_true] at h
    have hmain := runMain_agree kind op main (h.imp_right And.right) record
    simp only [run, bind_congr (h.imp_right (·.1.1)) record env]
    split
    · exact hmain _
    · exact (runAll_agree dependencies (h.imp_right (·.1.2)) record _).bind fun traces =>
        gate_agree kind op _ traces (hmain _)

theorem runMain_agree (kind : Kind) (op : Operator) : (main : Main) →
    (now = now' ∨ isTimelessMain main = true) → (record : Json) → (env : Environment) →
    Agree (runMain now kind op main record env) (runMain now' kind op main record env)
  | .pass, _, _, _ => agree_pure _
  | .compound children, h, record, env => by
    rw [runMain, runMain]
    exact (runAll_agree children h record env).bind fun traces =>
      (group_yields kind op env traces).agree
  | .iterate collection children, h, record, env => by
    rw [isTimelessMain, Bool.and_eq_true] at h
    rw [runMain, runMain, Getter.value_congr collection (h.imp_right And.left)]
    refine (agree_mapM (fun target => ?_) _).bind fun traces => ?_
    · exact (runAll_agree children (h.imp_right And.right) target env).bind fun _ => agree_pure _
    · exact (group_yields kind op env traces).agree.bind fun _ => agree_pure _
  | .values scope rightText left right, h, record, env => by
    rw [isTimelessMain, Bool.and_eq_true] at h
    rw [runMain, runMain, Getter.value_congr left (h.imp_right And.left),
      Getter.value_congr right (h.imp_right And.right)]
    exact (testValues_yields op scope rightText _ _).agree.bind fun _ => agree_pure _
  | .instants left right, h, record, env | .extent left right, h, record, env => by
    rw [isTimelessMain, Bool.and_eq_true] at h
    rw [runMain, runMain, Getter.value_congr left (h.imp_right And.left),
      Getter.value_congr right (h.imp_right And.right)]
    exact agree_pure _
  | .presence left, h, record, env => by
    rw [runMain, runMain, Getter.value_congr left h]
    exact agree_pure _

theorem runAll_agree : (checks : List Check) → (now = now' ∨ isTimelessAll checks = true) →
    (record : Json) → (env : Environment) →
    Agree (runAll now checks record env) (runAll now' checks record env)
  | [], _, _, _ => agree_pure _
  | c :: rest, h, record, env => by
    rw [isTimelessAll, Bool.and_eq_true] at h
    rw [runAll, runAll]
    exact (run_agree c (h.imp_right And.left) record env).bind fun _ =>
      (runAll_agree rest (h.imp_right And.right) record env).bind fun _ => agree_pure _
end

end Run

end Check

end Verdict
