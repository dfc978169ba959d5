import Std.Data.HashMap
import Verdict.Pattern.Expr
import Verdict.Text.Utf8

/-!
# Automata over bytes

The room that an expression takes as an automaton which reads the bytes of a text, from front to
back or from back to front. Expressions are refused if either of their automata takes too much.

States are numbered in the order in which they are made. Sets of characters share states between
the encodings of their members, as far as a memory of limited size recalls the states made before.
-/

namespace Verdict.Pattern.Automaton

open Verdict.Text

/-- The way in which an automaton reads a text. -/
inductive Way where
  | forward
  | backward
  deriving DecidableEq

/-- An automaton under construction: the number of its states, and the bytes that they hold
beside their own. -/
structure Room where
  states : Nat := 0
  held : Nat := 0

def Room.bytes (r : Room) : Nat :=
  32 * r.states + r.held

def maxBytes : Nat := 0xA00000

/-- Steps of a construction, which ends as soon as the automaton is too large. -/
abbrev Builder := StateT Room Option

def grow (states held : Nat) : Builder Unit := fun r =>
  let r : Room := ⟨r.states + states, r.held + held⟩
  if r.bytes ≤ maxBytes then some ((), r) else none

def newState (held : Nat) : Builder Nat := do
  let n := (← get).states
  grow 1 held
  return n

def forks (count : Nat) : Builder Unit :=
  grow 0 (4 * count)

/-- Leads from the end of a part to what follows it: another way on, if the part ends in a state
that forks. -/
def lead (fork : Bool) : Builder Unit :=
  if fork then forks 1 else pure ()

/-! ## Sets of characters -/

/-- States made before, by slots; each slot recalls its latest state only. -/
abbrev Memory (α : Type) := Std.HashMap UInt64 (α × Nat)

def slot (size : UInt64) (key : List Nat) : UInt64 :=
  key.foldl (fun h n => (h ^^^ n.toUInt64) * 0x100000001B3) 0xCBF29CE484222325 % size

/-- The state for a key: one made before, or a new one. -/
def remembered [DecidableEq α] (size : UInt64) (numbers : α → List Nat) (held : α → Nat)
    (key : α) : StateT (Memory α) Builder Nat := do
  let place := slot size (numbers key)
  let new : StateT (Memory α) Builder Nat := do
    let state ← newState (held key)
    modify (·.insert place (key, state))
    return state
  match (← get)[place]? with
  | some (known, state) => if known = key then return state else new
  | none => new

abbrev Moves := List (Utf8.ByteRange × Nat)

def numbers (moves : Moves) : List Nat :=
  moves.flatMap fun ((low, high), next) => [low, high, next]

def groups : List (List Utf8.ByteRange) →
    List (Utf8.ByteRange × List (List Utf8.ByteRange))
  | [] => []
  | [] :: more => groups more
  | (r :: rest) :: more =>
    match groups more with
    | (s, rests) :: others =>
      if r = s then (r, rest :: rests) :: others else (r, [rest]) :: (s, rests) :: others
    | [] => [(r, [rest])]

/-- The state from which encodings lead to a target. Encodings that begin alike share states, and
so do encodings that end alike. No encoding is longer than the depth. -/
def front (target : Nat) : (depth : Nat) → List (List Utf8.ByteRange) →
    StateT (Memory Moves) Builder Nat
  | 0, _ => pure target
  | depth + 1, encodings => do
    let moves ← (groups encodings).mapM fun (range, rests) => do
      let next ← if rests.all List.isEmpty then pure target else front target depth rests
      return (range, next)
    remembered 10000 numbers (8 * ·.length) moves

/-- The state from which one encoding leads back to a target; encodings that begin alike share
states. -/
def back (target : Nat) : List Utf8.ByteRange →
    StateT (Memory (Nat × Utf8.ByteRange)) Builder Nat
  | [] => pure target
  | range :: rest => do
    let state ← remembered 1000 (fun (next, low, high) => [next, low, high]) (fun _ => 0)
      (target, range)
    back state rest

def ofSet (way : Way) (s : CharSet) : Builder Bool :=
  if s.isAscii then do
    grow 2 (8 * s.ranges.size)
    return false
  else
    let encodings := Utf8.sequences s
    match way with
    | .forward => do
      let target ← newState 0
      let _ ← (front target 4 encodings).run {}
      return false
    | .backward => do
      grow 1 0
      let target ← newState 0
      let _ ← (encodings.forM fun encoding => do
        let _ ← back target encoding
        forks 1).run {}
      return false

/-! ## Words and choices -/

def encoding (cs : List Char) : List UInt8 :=
  cs.flatMap String.utf8EncodeChar

/-- Divides what is left of the words of a tree where a word ends. -/
def chunks : List (List UInt8) → List (List (List UInt8))
  | [] => [[]]
  | [] :: more => [] :: chunks more
  | w :: more =>
    match chunks more with
    | chunk :: others => (w :: chunk) :: others
    | [] => [[w]]

def insertWord (b : UInt8) (rest : List UInt8) :
    List (UInt8 × List (List UInt8)) → List (UInt8 × List (List UInt8))
  | [] => [(b, [rest])]
  | (c, rests) :: others =>
    if b = c then (c, rests ++ [rest]) :: others else (c, rests) :: insertWord b rest others

def addWord (table : List (UInt8 × List (List UInt8))) :
    List UInt8 → List (UInt8 × List (List UInt8))
  | [] => table
  | b :: rest => insertWord b rest table

def byFirst (chunk : List (List UInt8)) : List (UInt8 × List (List UInt8)) :=
  chunk.foldl addWord []

/-- The states of a tree of words, in which words that begin alike share states until one of them
ends. No word is longer than the depth. -/
def tree : (depth : Nat) → List (List UInt8) → Builder Unit
  | 0, _ => pure ()
  | depth + 1, words =>
    if words.all List.isEmpty then pure ()
    else do
      -- words that end before any other goes on end once
      let ended := words.takeWhile List.isEmpty
      let words := ended.take 1 ++ words.dropWhile List.isEmpty
      let tables := (chunks words).map byFirst
      tables.forM fun table => table.forM fun (_, rests) => tree depth rests
      let used := tables.filter (!·.isEmpty)
      used.forM fun table => grow 1 (if table.length = 1 then 0 else 8 * table.length)
      grow 1 0
      forks (used.length + words.countP List.isEmpty)

def word? : Expr → Option (List Char)
  | .word cs => some cs
  | _ => none

def words? (e : Expr) : Option (List (List Char)) :=
  match e with
  | .alt .. => e.branches.mapM word?
  | _ => none

/-- The bytes of a word, in the order in which they are read. -/
def spelling (way : Way) (cs : List Char) : List UInt8 :=
  match way with
  | .forward => encoding cs
  | .backward => (encoding cs).reverse

def ofWords (way : Way) (words : List (List Char)) : Builder Bool := do
  let words := words.map (spelling way)
  grow 1 0
  tree (words.foldl (fun n w => max n w.length) 0) words
  return false

/-! ## Expressions -/

/-- One branch or several; a state that forks leads to them, and they lead to a common end. -/
def fork : List (Builder Bool) → Builder Bool
  | [] => do
    grow 1 0
    return false
  | [only] => only
  | first :: second :: more => do
    let f ← first
    let s ← second
    grow 2 0
    forks 2
    lead f
    lead s
    more.forM fun branch => do
      let b ← branch
      forks 1
      lead b
    return false

def again (body : Builder Bool) : (count : Nat) → (end? : Bool) → Builder Bool
  | 0, last => pure last
  | n + 1, last => do
    let next ← body
    lead last
    again body n next

def exactly (body : Builder Bool) : (count : Nat) → Builder Bool
  | 0 => do
    grow 1 0
    return false
  | n + 1 => do
    let first ← body
    again body n first

/-- Further rounds, each of which may be left out with those behind it. -/
def optional (body : Builder Bool) : (count : Nat) → (end? : Bool) → Builder Unit
  | 0, last => lead last
  | n + 1, last => do
    grow 1 0
    let next ← body
    lead last
    forks 2
    optional body n next

def repetition (body : Builder Bool) (nonempty : Bool) (least : Nat) :
    (most : Option Nat) → Builder Bool
  | some most =>
    if least = most then exactly body least
    else if least = 0 ∧ most = 1 then do
      grow 1 0
      let last ← body
      grow 1 0
      forks 2
      lead last
      return false
    else do
      let last ← exactly body least
      grow 1 0
      optional body (most - least) last
      return false
  | none =>
    if least = 0 then
      if nonempty then do
        grow 1 0
        let last ← body
        forks 1
        lead last
        return true
      else do
        let last ← body
        grow 3 0
        lead last
        forks 4
        return false
    else do
      let before ← if least = 1 then pure false else exactly body (least - 1)
      let last ← body
      grow 1 0
      lead before
      lead last
      forks 1
      return true

/-- An expression out of its branches; words form a tree. -/
def whole (way : Way) (e : Expr) (branches : List (Builder Bool)) : Builder Bool :=
  match words? e with
  | some words => ofWords way words
  | none => fork branches

/-- How the branches of an expression are built. Each says whether it ends in a state that
forks. Groups are marked in automata that read forward. -/
def plan (way : Way) : Expr → List (Builder Bool)
  | .empty => [do
    grow 1 0
    return false]
  | .word cs => [do
    grow (encoding cs).length 0
    return false]
  | .set s => [ofSet way s]
  | .look _ => [do
    grow 1 0
    return false]
  | .capture _ e =>
    let inside := whole way e (plan way e)
    [match way with
    | .forward => do
      grow 1 0
      let last ← inside
      grow 1 0
      lead last
      return false
    | .backward => inside]
  | .seq a b =>
    let (first, second) := match way with
      | .forward => (whole way a (plan way a), whole way b (plan way b))
      | .backward => (whole way b (plan way b), whole way a (plan way a))
    [do
    let last ← first
    again second 1 last]
  | .alt a b => whole way a (plan way a) :: plan way b
  | .rep least most _ e =>
    [repetition (whole way e (plan way e)) (e.minLength.getD 0 > 0) least most]

/-- Whether matches are at one end of the text only, where the automaton starts. -/
def anchored (e : Expr) : Way → Bool
  | .forward => e.beginsText
  | .backward => e.endsText

/-- The automaton of an expression. Unless it is anchored, it skips bytes in front of matches. -/
def build (way : Way) (e : Expr) : Builder Unit := do
  if anchored e way then grow 1 0
  else
    grow 3 8
    forks 1
  let last ← whole way (.capture 0 e) (plan way (.capture 0 e))
  grow 1 0
  lead last
  lead (!anchored e way)

/-- Choices between very many words are looked up without an automaton. -/
def isVocabulary (e : Expr) : Bool :=
  (words? e).any fun words => words.length ≥ 3000

def fits (e : Expr) : Bool :=
  isVocabulary e || (((build .forward e).run {}).isSome && ((build .backward e).run {}).isSome)

end Verdict.Pattern.Automaton
