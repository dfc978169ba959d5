import Verdict.Cache

/-!
# Caches are transparent

A cache that starts empty and is only fetched from and cleared holds nothing but what its keys
build.  Fetching then answers what building would answer, whatever the capacity.
-/

namespace Verdict.Cache

variable {α ε : Type} {build : String → Except ε α} {c : Cache α}

/-- Every kept value is the one that its key builds. -/
def Sound (build : String → Except ε α) (c : Cache α) : Prop :=
  ∀ key shared, c.find? key = some shared → build key = .ok shared.value

/-- The caches that fetching and clearing lead to from an empty one. -/
inductive Reached (build : String → Except ε α) : Cache α → Prop
  | empty (capacity : Option Nat) : Reached build { capacity }
  | fetch {c : Cache α} (h : Reached build c) (key : String) (fresh : Nat) :
      Reached build (c.fetch build key fresh).2.1
  | clear {c : Cache α} (h : Reached build c) : Reached build c.clear

theorem sound_of_no_entries (h : c.entries = []) : c.Sound build := by
  intro key shared hfind
  simp [find?, h] at hfind

theorem sound_insert {key : String} {shared : Shared α} (hc : c.Sound build)
    (hkey : build key = .ok shared.value) :
    Sound build { c with entries := (key, shared) :: c.entries } := by
  intro k kept hfind
  rw [find?, List.lookup_cons] at hfind
  split at hfind
  · rename_i heq
    cases hfind
    rw [beq_iff_eq.mp heq]
    exact hkey
  · exact hc k kept hfind

theorem sound_fetch (hc : c.Sound build) (key : String) (fresh : Nat) :
    (c.fetch build key fresh).2.1.Sound build := by
  unfold fetch
  split
  · exact hc
  · split
    · exact hc
    · rename_i value hvalue
      dsimp only
      split
      · exact sound_insert hc hvalue
      · exact hc

theorem Reached.sound (h : Reached build c) : c.Sound build := by
  induction h with
  | empty capacity => exact sound_of_no_entries rfl
  | fetch _ key fresh ih => exact sound_fetch ih key fresh
  | clear _ _ => exact sound_of_no_entries rfl

theorem fetch_value (hc : c.Sound build) (key : String) (fresh : Nat) :
    (c.fetch build key fresh).1.map (·.value) = build key := by
  unfold fetch
  split
  · rename_i shared hfind
    exact (hc key shared hfind).symm
  · split
    · rename_i e he
      rw [he]
      rfl
    · rename_i value hvalue
      rw [hvalue]
      rfl

/-! ## Keys -/

/-- The keys of the kept values, in the order in which they came to be kept. -/
def keys (c : Cache α) : List String :=
  (c.entries.map (·.1)).reverse

theorem length_keys (c : Cache α) : c.keys.length = c.size := by
  rw [keys, List.length_reverse, List.length_map, size]

theorem contains_iff {key : String} : c.contains key = true ↔ key ∈ c.keys := by
  rw [contains, find?, keys, List.mem_reverse]
  induction c.entries with
  | nil => simp
  | cons entry rest ih =>
    rw [List.lookup_cons, List.map_cons, List.mem_cons, ← ih]
    by_cases hkey : key = entry.1
    · simp [hkey]
    · have hne : (key == entry.1) = false := by simpa using hkey
      simp only [hne, hkey, false_or]

theorem find?_eq_none_iff {key : String} : c.find? key = none ↔ key ∉ c.keys := by
  rw [← contains_iff, contains]
  cases c.find? key <;> simp

/-! ## Ways to fetch -/

variable {key : String} {fresh : Nat}

theorem fetch_kept {shared : Shared α} (h : c.find? key = some shared) :
    c.fetch build key fresh = (.ok shared, c, fresh) := by
  rw [fetch, h]

theorem fetch_fault {e : ε} (h : c.find? key = none) (hkey : build key = .error e) :
    c.fetch build key fresh = (.error e, c, fresh) := by
  rw [fetch, h, hkey]

theorem fetch_entered {value : α} (h : c.find? key = none) (hkey : build key = .ok value)
    (hroom : c.hasRoom = true) (fresh : Nat) :
    c.fetch build key fresh =
      (.ok ⟨fresh, value⟩, { c with entries := (key, ⟨fresh, value⟩) :: c.entries },
        fresh + 1) := by
  rw [fetch, h, hkey]
  simp only [hroom, if_true]

theorem fetch_refused {value : α} (h : c.find? key = none) (hkey : build key = .ok value)
    (hroom : c.hasRoom = false) :
    c.fetch build key fresh = (.ok ⟨fresh, value⟩, c, fresh + 1) := by
  rw [fetch, h, hkey]
  simp only [hroom, Bool.false_eq_true, if_false]

theorem capacity_fetch (c : Cache α) (build : String → Except ε α) (key : String) (fresh : Nat) :
    (c.fetch build key fresh).2.1.capacity = c.capacity := by
  unfold fetch
  split
  · rfl
  · split
    · rfl
    · dsimp only
      split <;> rfl

/-- Without a limit, a key that is fetched is kept from then on. -/
theorem contains_fetch (hcapacity : c.capacity = none) {shared : Shared α}
    (h : (c.fetch build key fresh).1 = .ok shared) (k : String) :
    (c.fetch build key fresh).2.1.contains k = true ↔ c.contains k = true ∨ k = key := by
  rcases hfind : c.find? key with _ | kept
  · rcases hbuild : build key with e | value
    · rw [fetch_fault hfind hbuild] at h
      cases h
    · have hroom : c.hasRoom = true := by rw [hasRoom, hcapacity]
      rw [fetch_entered hfind hbuild hroom, contains_iff, contains_iff, keys, keys]
      simp
  · rw [fetch_kept hfind]
    refine ⟨.inl, ?_⟩
    rintro (hk | rfl)
    · exact hk
    · rw [contains, hfind, Option.isSome_some]

end Verdict.Cache
