import Mathlib.Data.List.Nodup
import Verdict.Proofs.Rule.Run

/-!
# Runs of a cache

A cache starts empty and is then asked for values, for what it holds and to forget everything.
What it holds has a closed form: the keys that were got since it was last cleared, each once and
in the order of their first success, cut off at the capacity.  Every answer follows from that and
from what the keys build.
-/

namespace Verdict.Cache

inductive Operation
  | get (key : String)
  | contains (key : String)
  | size
  | clear

inductive Answer (ε α : Type)
  | got (outcome : Except ε (Shared α))
  | flag (kept : Bool)
  | number (n : Nat)
  | done

/-- A cache, and the next identity to hand out. -/
structure State (α : Type) where
  cache : Cache α
  fresh : Nat

variable {α ε : Type}

namespace State

def empty (capacity : Option Nat) (fresh : Nat) : State α :=
  ⟨{ capacity }, fresh⟩

def perform (build : String → Except ε α) : Operation → State α → Answer ε α × State α
  | .get key, s =>
    let (outcome, cache, fresh) := s.cache.fetch build key s.fresh
    (.got outcome, ⟨cache, fresh⟩)
  | .contains key, s => (.flag (s.cache.contains key), s)
  | .size, s => (.number s.cache.size, s)
  | .clear, s => (.done, ⟨s.cache.clear, s.fresh⟩)

def performAll (build : String → Except ε α) :
    List Operation → State α → List (Answer ε α) × State α
  | [], s => ([], s)
  | op :: rest, s =>
    let (answer, s) := s.perform build op
    let (answers, s) := s.performAll build rest
    (answer :: answers, s)

end State

/-- The answers of a cache that starts empty, and the state that it comes to. -/
def run (build : String → Except ε α) (capacity : Option Nat) (fresh : Nat)
    (ops : List Operation) : List (Answer ε α) × State α :=
  State.performAll build ops (.empty capacity fresh)

/-! ## Which keys are kept -/

/-- The keys that a cache without a limit keeps after one more operation. -/
def want (build : String → Except ε α) (names : List String) : Operation → List String
  | .get key =>
    if key ∈ names then names
    else match build key with
      | .ok _ => names ++ [key]
      | .error _ => names
  | .clear => []
  | _ => names

/-- The keys that were got since the cache was last cleared, as far as they build, each once and
in the order in which they were first got. -/
def wanted (build : String → Except ε α) (ops : List Operation) : List String :=
  ops.foldl (want build) []

def limit (capacity : Option Nat) (names : List String) : List String :=
  match capacity with
  | none => names
  | some n => names.take n

theorem mem_of_mem_limit {capacity : Option Nat} {names : List String} {key : String}
    (h : key ∈ limit capacity names) : key ∈ names := by
  cases capacity with
  | none => exact h
  | some n => exact List.mem_of_mem_take h

/-- What a state is after operations that want these keys. -/
structure Keeps (build : String → Except ε α) (capacity : Option Nat) (names : List String)
    (s : State α) : Prop where
  bound : s.cache.capacity = capacity
  sound : s.cache.Sound build
  keys : s.cache.keys = limit capacity names

section

variable {build : String → Except ε α} {capacity : Option Nat} {names : List String}
  {s : State α} {key : String}

theorem keeps_empty (build : String → Except ε α) (capacity : Option Nat)
    (fresh : Nat) : Keeps build capacity [] (.empty capacity fresh) where
  bound := rfl
  sound := sound_of_no_entries rfl
  keys := by cases capacity <;> simp [limit, keys, State.empty]

namespace Keeps

theorem bounded (h : Keeps build capacity names s) {n : Nat} (hn : capacity = some n) :
    s.cache.size ≤ n := by
  rw [← length_keys, h.keys, hn]
  exact List.length_take_le n names

theorem hasRoom_iff (h : Keeps build capacity names s) :
    s.cache.hasRoom = true ↔ ∀ n, capacity = some n → names.length < n := by
  have hsize : s.cache.size = (limit capacity names).length := by rw [← length_keys, h.keys]
  rw [hasRoom, h.bound]
  cases hcap : capacity with
  | none => simp
  | some n =>
    rw [hsize, hcap, limit, List.length_take]
    simp only [decide_eq_true_eq, Option.some.injEq]
    constructor
    · intro hlt m hm
      omega
    · intro hlt
      have := hlt n rfl
      omega

/-- As long as there is room, nothing that is wanted has been left out. -/
theorem keys_of_hasRoom (h : Keeps build capacity names s) (hroom : s.cache.hasRoom = true) :
    s.cache.keys = names := by
  rw [h.keys]
  cases hcap : capacity with
  | none => rfl
  | some n => exact List.take_of_length_le (Nat.le_of_lt (h.hasRoom_iff.mp hroom n hcap))

/-- Once there is no room, what is wanted next changes nothing. -/
theorem limit_of_full (h : Keeps build capacity names s) (hroom : s.cache.hasRoom = false)
    (more : List String) : limit capacity (names ++ more) = limit capacity names := by
  cases hcap : capacity with
  | none => simp [hasRoom, h.bound, hcap] at hroom
  | some n =>
    have hfull : n ≤ names.length := by
      by_contra hlt
      refine Bool.false_ne_true (hroom.symm.trans (h.hasRoom_iff.mpr fun m hm => ?_))
      cases hm.symm.trans hcap
      omega
    exact List.take_append_of_le_length hfull

theorem limit_of_room (h : Keeps build capacity names s) (hroom : s.cache.hasRoom = true) :
    limit capacity (names ++ [key]) = s.cache.keys ++ [key] := by
  rw [h.keys_of_hasRoom hroom]
  cases hcap : capacity with
  | none => rfl
  | some n =>
    refine List.take_of_length_le ?_
    have := h.hasRoom_iff.mp hroom n hcap
    rw [List.length_append, List.length_singleton]
    omega

theorem get_keeps (h : Keeps build capacity names s) (key : String) :
    Keeps build capacity (want build names (.get key)) (s.perform build (.get key)).2 := by
  have hsound := sound_fetch h.sound key s.fresh
  rcases hfind : s.cache.find? key with _ | shared
  · have hkey : key ∉ s.cache.keys := find?_eq_none_iff.mp hfind
    rcases hbuild : build key with e | value
    · have hnames : want build names (.get key) = names := by simp [want, hbuild]
      rw [hnames, State.perform, fetch_fault hfind hbuild]
      exact h
    · by_cases hroom : s.cache.hasRoom = true
      · have hnames : want build names (.get key) = names ++ [key] := by
          rw [h.keys_of_hasRoom hroom] at hkey
          simp [want, hbuild, hkey]
        rw [fetch_entered hfind hbuild hroom] at hsound
        rw [hnames, State.perform, fetch_entered hfind hbuild hroom]
        refine ⟨h.bound, hsound, ?_⟩
        rw [h.limit_of_room hroom]
        simp [Cache.keys]
      · rw [Bool.not_eq_true] at hroom
        have hnames : limit capacity (want build names (.get key)) = limit capacity names := by
          by_cases hmem : key ∈ names
          · simp [want, hmem]
          · simp [want, hbuild, hmem, h.limit_of_full hroom]
        rw [State.perform, fetch_refused hfind hbuild hroom]
        exact ⟨h.bound, h.sound, h.keys.trans hnames.symm⟩
  · have hmem : key ∈ names := by
      refine mem_of_mem_limit (h.keys ▸ contains_iff.mp ?_ : key ∈ limit capacity names)
      rw [contains, hfind, Option.isSome_some]
    have hnames : want build names (.get key) = names := by simp [want, hmem]
    rw [hnames, State.perform, fetch_kept hfind]
    exact h

theorem perform (h : Keeps build capacity names s) (op : Operation) :
    Keeps build capacity (want build names op) (s.perform build op).2 := by
  cases op with
  | get key => exact h.get_keeps key
  | contains key => exact h
  | size => exact h
  | clear =>
    refine ⟨h.bound, sound_of_no_entries rfl, ?_⟩
    exact (keeps_empty build capacity s.fresh).keys

theorem performAll (h : Keeps build capacity names s) (ops : List Operation) :
    Keeps build capacity (ops.foldl (want build) names) (s.performAll build ops).2 := by
  induction ops generalizing s names with
  | nil => exact h
  | cons op rest ih => exact ih (h.perform op)

end Keeps

theorem keeps_wanted (build : String → Except ε α) (capacity : Option Nat) (fresh : Nat)
    (ops : List Operation) :
    Keeps build capacity (wanted build ops) (run build capacity fresh ops).2 :=
  (keeps_empty build capacity fresh).performAll ops

end

/-! ## Instances -/

namespace State

section

variable {build : String → Except ε α} {s : State α} {key : String} {shared : Shared α}

theorem perform_get_kept (hfind : s.cache.find? key = some shared) :
    s.perform build (.get key) = (.got (.ok shared), s) := by
  rw [perform, fetch_kept hfind]

theorem perform_get_fault {e : ε} (hsound : s.cache.Sound build) (hkey : build key = .error e) :
    s.perform build (.get key) = (.got (.error e), s) := by
  rcases hfind : s.cache.find? key with _ | shared
  · rw [perform, fetch_fault hfind hkey]
  · cases hkey.symm.trans (hsound key shared hfind)

/-- What is kept stays kept, as the same instance, until the cache is cleared. -/
theorem perform_kept (hfind : s.cache.find? key = some shared) {op : Operation}
    (hop : op ≠ .clear) : (s.perform build op).2.cache.find? key = some shared := by
  cases op with
  | get other =>
    rw [perform]
    rcases hother : s.cache.find? other with _ | kept
    · rcases hbuild : build other with e | value
      · rw [fetch_fault hother hbuild]
        exact hfind
      · rcases hroom : s.cache.hasRoom with _ | _
        · rw [fetch_refused hother hbuild hroom]
          exact hfind
        · rw [fetch_entered hother hbuild hroom]
          have hne : key ≠ other := by
            rintro rfl
            cases hother.symm.trans hfind
          have hne' : (key == other) = false := by simpa using hne
          simpa only [find?, List.lookup_cons, hne'] using hfind
    · rw [fetch_kept hother]
      exact hfind
  | contains other => exact hfind
  | size => exact hfind
  | clear => exact absurd rfl hop

theorem performAll_kept (build : String → Except ε α) (hfind : s.cache.find? key = some shared)
    {ops : List Operation} (hops : .clear ∉ ops) :
    (s.performAll build ops).2.cache.find? key = some shared := by
  induction ops generalizing s with
  | nil => exact hfind
  | cons op rest ih =>
    rw [List.mem_cons, not_or] at hops
    exact ih (perform_kept hfind (Ne.symm hops.1)) hops.2

/-- A full cache stays as it is until it is cleared. -/
theorem perform_full (build : String → Except ε α) (hroom : s.cache.hasRoom = false)
    {op : Operation} (hop : op ≠ .clear) :
    (s.perform build op).2.cache = s.cache := by
  cases op with
  | get key =>
    rw [perform]
    rcases hfind : s.cache.find? key with _ | shared
    · rcases hbuild : build key with e | value
      · rw [fetch_fault hfind hbuild]
      · rw [fetch_refused hfind hbuild hroom]
    · rw [fetch_kept hfind]
  | contains key => rfl
  | size => rfl
  | clear => exact absurd rfl hop

theorem performAll_full (build : String → Except ε α) (hroom : s.cache.hasRoom = false)
    {ops : List Operation} (hops : .clear ∉ ops) : (s.performAll build ops).2.cache = s.cache := by
  induction ops generalizing s with
  | nil => rfl
  | cons op rest ih =>
    rw [List.mem_cons, not_or] at hops
    have hstep := perform_full build hroom (Ne.symm hops.1)
    exact (ih (hstep ▸ hroom) hops.2).trans hstep

def Older (s : State α) : Prop :=
  ∀ key shared, s.cache.find? key = some shared → shared.id < s.fresh

/-- An identity that is handed out is older than the next one, and kept ones stay older. -/
theorem Older.perform (build : String → Except ε α) (h : s.Older) (op : Operation) :
    s.fresh ≤ (s.perform build op).2.fresh ∧ (s.perform build op).2.Older ∧
      ∀ shared, (s.perform build op).1 = .got (.ok shared) →
        shared.id < (s.perform build op).2.fresh := by
  cases op with
  | get key =>
    rw [State.perform]
    rcases hfind : s.cache.find? key with _ | kept
    · rcases hbuild : build key with e | value
      · rw [fetch_fault hfind hbuild]
        exact ⟨Nat.le_refl _, h, fun shared hs => by cases hs⟩
      · rcases hroom : s.cache.hasRoom with _ | _
        · rw [fetch_refused hfind hbuild hroom]
          refine ⟨Nat.le_succ _, fun k shared hs => Nat.lt_succ_of_lt (h k shared hs), ?_⟩
          rintro shared ⟨⟩
          exact Nat.lt_succ_self _
        · rw [fetch_entered hfind hbuild hroom]
          refine ⟨Nat.le_succ _, fun k shared hs => ?_, ?_⟩
          · rw [find?, List.lookup_cons] at hs
            split at hs
            · cases hs
              exact Nat.lt_succ_self _
            · exact Nat.lt_succ_of_lt (h k shared hs)
          · rintro shared ⟨⟩
            exact Nat.lt_succ_self _
    · rw [fetch_kept hfind]
      refine ⟨Nat.le_refl _, h, ?_⟩
      rintro shared ⟨⟩
      exact h key kept hfind
  | contains key => exact ⟨Nat.le_refl _, h, fun shared hs => by cases hs⟩
  | size => exact ⟨Nat.le_refl _, h, fun shared hs => by cases hs⟩
  | clear =>
    exact ⟨Nat.le_refl _, fun key shared hs => by simp [clear, find?, State.perform] at hs,
      fun shared hs => by cases hs⟩

theorem Older.performAll (build : String → Except ε α) (h : s.Older) (ops : List Operation) :
    s.fresh ≤ (s.performAll build ops).2.fresh ∧
      ∀ shared, .got (.ok shared) ∈ (s.performAll build ops).1 →
        shared.id < (s.performAll build ops).2.fresh := by
  induction ops generalizing s with
  | nil => exact ⟨Nat.le_refl _, fun shared hs => by cases hs⟩
  | cons op rest ih =>
    obtain ⟨hle, hstep, hanswer⟩ := h.perform build op
    obtain ⟨hrest, hanswers⟩ := ih hstep
    refine ⟨Nat.le_trans hle hrest, fun shared hs => ?_⟩
    rcases List.mem_cons.mp hs with hs | hs
    · exact Nat.lt_of_lt_of_le (hanswer shared hs.symm) hrest
    · exact hanswers shared hs

end

end State

theorem nodup_wanted (build : String → Except ε α) (ops : List Operation) :
    (wanted build ops).Nodup := by
  have hstep : ∀ (names : List String) op, names.Nodup → (want build names op).Nodup := by
    intro names op h
    cases op with
    | get key =>
      rw [want]
      split
      · exact h
      · rename_i hkey
        split
        · rw [List.nodup_append]
          exact ⟨h, List.nodup_singleton _, by
            rintro a ha b hb rfl
            exact hkey (List.mem_singleton.mp hb ▸ ha)⟩
        · exact h
    | clear => exact List.nodup_nil
    | contains key => exact h
    | size => exact h
  exact List.foldlRecOn ops (want build) List.nodup_nil fun names h op _ => hstep names op h

/-! ## Service -/

/-- What a cache does once it has answered some operations: what it holds, what it tells about
that, and how it answers the next request for a value and all later ones until it is cleared. -/
structure Serves (build : String → Except ε α) (capacity : Option Nat) (ops : List Operation)
    (answers : List (Answer ε α)) (s : State α) : Prop where
  keys : s.cache.keys = limit capacity (wanted build ops)
  distinct : s.cache.keys.Nodup
  bounded : ∀ n, capacity = some n → s.cache.size ≤ n
  contains : ∀ key, s.perform build (.contains key) = (.flag (decide (key ∈ s.cache.keys)), s)
  size : s.perform build .size = (.number s.cache.keys.length, s)
  transparent : ∀ key, ∃ outcome after,
    s.perform build (.get key) = (.got outcome, after) ∧ outcome.map (·.value) = build key
  fault : ∀ key e, build key = .error e → s.perform build (.get key) = (.got (.error e), s)
  entered : ∀ key value, key ∉ s.cache.keys → build key = .ok value →
    (∀ n, capacity = some n → s.cache.size < n) →
    ∃ after, s.perform build (.get key) = (.got (.ok ⟨s.fresh, value⟩), after) ∧
      after.cache.find? key = some ⟨s.fresh, value⟩ ∧ after.cache.keys = s.cache.keys ++ [key]
  kept : ∀ key ∈ s.cache.keys, ∃ shared, s.cache.find? key = some shared ∧
    ∀ later, .clear ∉ later →
      let after := (s.performAll build later).2
      key ∈ after.cache.keys ∧ after.perform build (.get key) = (.got (.ok shared), after)
  refused : ∀ key value n, key ∉ s.cache.keys → build key = .ok value → capacity = some n →
    n ≤ s.cache.size → ∀ later, .clear ∉ later →
      let after := (s.performAll build later).2
      key ∉ after.cache.keys ∧ after.perform build (.get key) =
        (.got (.ok ⟨after.fresh, value⟩), ⟨after.cache, after.fresh + 1⟩)
  fresh : ∀ shared, .got (.ok shared) ∈ answers → shared.id < s.fresh

theorem serves (build : String → Except ε α) (capacity : Option Nat) (fresh : Nat)
    (ops : List Operation) :
    let (answers, s) := run build capacity fresh ops
    Serves build capacity ops answers s := by
  have h := keeps_wanted build capacity fresh ops
  rcases hrun : run build capacity fresh ops with ⟨answers, s⟩
  rw [hrun] at h
  have hroom_iff : s.cache.hasRoom = true ↔ ∀ n, capacity = some n → s.cache.size < n := by
    rw [hasRoom, h.bound]
    cases capacity <;> simp
  exact
    { keys := h.keys
      distinct := by
        rw [h.keys]
        cases capacity with
        | none => exact nodup_wanted build ops
        | some n => exact (nodup_wanted build ops).sublist (List.take_sublist n _)
      bounded := fun n hn => h.bounded hn
      contains := fun key => by
        have hflag : s.cache.contains key = decide (key ∈ s.cache.keys) := by
          rw [Bool.eq_iff_iff, contains_iff, decide_eq_true_iff]
        rw [State.perform, hflag]
      size := by rw [State.perform, length_keys]
      transparent := fun key => ⟨_, _, rfl, fetch_value h.sound key s.fresh⟩
      fault := fun key e hkey => State.perform_get_fault h.sound hkey
      entered := fun key value hkey hbuild hroom => by
        have hentered :=
          fetch_entered (find?_eq_none_iff.mpr hkey) hbuild (hroom_iff.mpr hroom) s.fresh
        refine ⟨_, by rw [State.perform, hentered], ?_, ?_⟩
        · simp [find?]
        · simp [Cache.keys]
      kept := fun key hkey => by
        obtain ⟨shared, hfind⟩ := Option.isSome_iff_exists.mp (contains_iff.mpr hkey)
        refine ⟨shared, hfind, fun later hlater => ?_⟩
        have hafter := State.performAll_kept build hfind hlater
        refine ⟨contains_iff.mp ?_, State.perform_get_kept hafter⟩
        rw [Cache.contains, hafter, Option.isSome_some]
      refused := fun key value n hkey hbuild hn hfull later hlater => by
        have hroom : s.cache.hasRoom = false := by
          refine Bool.eq_false_iff.mpr fun hroom => ?_
          have := hroom_iff.mp hroom n hn
          omega
        have hcache := State.performAll_full build hroom hlater
        have hfind := find?_eq_none_iff.mpr hkey
        rw [← hcache] at hkey hfind hroom
        refine ⟨hkey, ?_⟩
        rw [State.perform, fetch_refused hfind hbuild hroom]
      fresh := by
        have holder : (State.empty (α := α) capacity fresh).Older :=
          fun key shared hs => by simp [State.empty, find?] at hs
        have hanswers := (holder.performAll build ops).2
        rwa [show State.performAll build ops _ = _ from hrun] at hanswers }

/-- Caches of paths and of patterns serve what their keys spell, after any operations and with
any capacity; so comparing through a cache of patterns comes to the same as comparing without
one, and is nothing but further operations on it. -/
theorem caches_serve (capacity : Option Nat) (fresh : Nat) (ops : List Operation) :
    (match run Path.compile capacity fresh ops with
      | (answers, s) => Serves Path.compile capacity ops answers s) ∧
    (match run Pattern.buildDelimited capacity fresh ops with
      | (answers, s) =>
        Serves Pattern.buildDelimited capacity ops answers s ∧
        ∀ (op : Operator) (a b : Json),
          (op.compareWith a b s.cache s.fresh).1 = op.compare a b ∧
          ∃ more, (s.performAll Pattern.buildDelimited more).2 =
            ⟨(op.compareWith a b s.cache s.fresh).2.1,
              (op.compareWith a b s.cache s.fresh).2.2⟩) := by
  refine ⟨serves Path.compile capacity fresh ops, serves Pattern.buildDelimited capacity fresh ops,
    fun op a b => ⟨?_, ?_⟩⟩
  · exact Operator.compareWith_value (keeps_wanted _ capacity fresh ops).sound op a b _
  · cases op with
    | matching => exact ⟨[.get b.form], rfl⟩
    | _ => exact ⟨[], rfl⟩

end Verdict.Cache
