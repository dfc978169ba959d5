import Verdict.Pattern.Program
import Verdict.Text.Property

/-!
# Running a program on a text

All ways to match are followed side by side, one character at a time, in the order of their
preference. No instruction is entered twice at one position, so a run takes time in proportion
to the text and to the program.
-/

namespace Verdict.Pattern

open Verdict.Text

/-- Where the groups of a match begin and end: group `i` from slot `2 i` to slot `2 i + 1`. -/
abbrev Slots := Array (Option Nat)

namespace Search

private def isWord (ascii : Bool) (c : Option Char) : Bool :=
  match c with
  | none => false
  | some c => if ascii then c.isAlphanum || c == '_' else Property.wordChar.contains c

private def holds (before after : Option Char) : Look → Bool
  | .textStart => before.isNone
  | .textEnd => after.isNone
  | .lineStart => before.isNone || before == some '\n'
  | .lineEnd => after.isNone || after == some '\n'
  | .lineStartCrlf =>
    before.isNone || before == some '\n' || (before == some '\r' && after != some '\n')
  | .lineEndCrlf =>
    after.isNone || after == some '\r' || (after == some '\n' && before != some '\r')
  | .boundary a => isWord a before != isWord a after
  | .notBoundary a => isWord a before == isWord a after
  | .wordStart a => !isWord a before && isWord a after
  | .wordEnd a => isWord a before && !isWord a after
  | .wordStartHalf a => !isWord a before
  | .wordEndHalf a => !isWord a after

/-- The threads at one position, best first, with the instructions entered so far. -/
private structure Threads where
  entered : Array Bool
  list : Array (Nat × Slots)

private def Threads.none (size : Nat) : Threads :=
  ⟨Array.replicate size false, #[]⟩

/-- Follows instructions that consume nothing, from several places in turn. An instruction is
entered once and leaves two places at most, so twice their number is enough fuel. -/
private def follow (code : Code) (pos : Nat) (before after : Option Char) :
    (fuel : Nat) → List (Nat × Slots) → Threads → Threads
  | 0, _, ts => ts
  | _, [], ts => ts
  | fuel + 1, (pc, slots) :: rest, ts =>
    if ts.entered.getD pc true then follow code pos before after fuel rest ts
    else
      let ts := { ts with entered := ts.entered.setIfInBounds pc true }
      match code.getD pc .accept with
      | .fork a b => follow code pos before after fuel ((a, slots) :: (b, slots) :: rest) ts
      | .save slot next =>
        follow code pos before after fuel
          ((next, slots.setIfInBounds slot (some pos)) :: rest) ts
      | .check l next =>
        if holds before after l then
          follow code pos before after fuel ((next, slots) :: rest) ts
        else follow code pos before after fuel rest ts
      | .char .. | .accept =>
        follow code pos before after fuel rest { ts with list := ts.list.push (pc, slots) }

private def enter (code : Code) (pos : Nat) (before after : Option Char) (pc : Nat)
    (slots : Slots) (ts : Threads) : Threads :=
  follow code pos before after (2 * code.size + 2) [(pc, slots)] ts

private def advance (code : Code) (pos : Nat) (c : Option Char) (after : Option Char) :
    List (Nat × Slots) → Threads → Option Slots → Threads × Option Slots
  | [], next, best => (next, best)
  | (pc, slots) :: rest, next, best =>
    match code.getD pc .accept with
    | .accept => (next, some slots)
    | .char s target =>
      match c with
      | some c =>
        let next := if s.contains c then
            enter code (pos + 1) (some c) after target slots next
          else next
        advance code pos (some c) after rest next best
      | none => advance code pos none after rest next best
    | _ => advance code pos c after rest next best

private def loop (p : Program) (text : Array Char) (slotCount : Nat) :
    (count pos : Nat) → Threads → Option Slots → Option Slots
  | 0, _, _, best => best
  | count + 1, pos, ts, best =>
    let c := text[pos]?
    let before := if pos = 0 then none else text[pos - 1]?
    -- another match may begin here, behind all that began earlier
    let ts := if best.isSome then ts
      else enter p.code pos before c p.start (Array.replicate slotCount none) ts
    if ts.list.isEmpty && best.isSome then best
    else
      let (next, best) := advance p.code pos c text[pos + 1]? ts.list.toList
        (Threads.none p.code.size) best
      loop p text slotCount count (pos + 1) next best

def first (p : Program) (groups : Nat) (text : Array Char) (start : Nat) : Option Slots :=
  loop p text (2 * groups + 2) (text.size + 1 - start) start (Threads.none p.code.size) none

end Search

end Verdict.Pattern
