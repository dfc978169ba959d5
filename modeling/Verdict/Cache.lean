/-!
# Caches

A cache keeps what was built for a key, up to a capacity that it never exceeds: once it is full,
values are built as before but no longer kept. Every value that is built gets an identity of its
own, so that it can be told whether two values are one and the same.
-/

namespace Verdict

structure Shared (α : Type) where
  id : Nat
  value : α

/-- Values by their keys; no capacity means no limit. -/
structure Cache (α : Type) where
  entries : List (String × Shared α) := []
  capacity : Option Nat := none

namespace Cache

variable {α ε : Type}

def size (c : Cache α) : Nat :=
  c.entries.length

def find? (c : Cache α) (key : String) : Option (Shared α) :=
  c.entries.lookup key

def contains (c : Cache α) (key : String) : Bool :=
  (c.find? key).isSome

def hasRoom (c : Cache α) : Bool :=
  match c.capacity with
  | none => true
  | some n => c.size < n

def clear (c : Cache α) : Cache α :=
  { c with entries := [] }

/-- The kept value of a key, or a new one with the identity `fresh`, which is kept if there is
room. A failure keeps nothing and uses up no identity. -/
def fetch (build : String → Except ε α) (key : String) (c : Cache α) (fresh : Nat) :
    Except ε (Shared α) × Cache α × Nat :=
  match c.find? key with
  | some shared => (.ok shared, c, fresh)
  | none =>
    match build key with
    | .error e => (.error e, c, fresh)
    | .ok value =>
      let shared := ⟨fresh, value⟩
      let kept := if c.hasRoom then { c with entries := (key, shared) :: c.entries } else c
      (.ok shared, kept, fresh + 1)

end Cache

end Verdict
