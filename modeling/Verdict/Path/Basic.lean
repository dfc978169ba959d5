import Verdict.Decimal.Reading
import Verdict.Fault
import Verdict.Json.Basic
import Verdict.Text.Blank

/-!
# Paths

A path names places in a value by a list of segments. Its text starts with a name, a star or `$`;
further segments are `.name`, `..name`, `[index]`, `['name']` and stars. Negative indices count
from the end.
-/

namespace Verdict

open Decimal (isDigit readInt64)

inductive Segment where
  | field (name : String)
  | index (n : Int)
  | wildcard
  /-- The segment at every value inside, the value itself included. -/
  | descend (s : Segment)
  deriving DecidableEq

structure Path where
  segments : List Segment
  deriving DecidableEq

namespace Path

/-! ## Reading -/

def isNameChar (c : Char) : Bool :=
  !(c == '.' || c == '[' || c == ']' || c == '*' || c == '\x27' || c == '"') && !Text.isBlank c

abbrev ReadError := List Char × Reason

abbrev Step := Except ReadError (Segment × List Char)

def readName (cs : List Char) : Step :=
  match cs with
  | '*' :: rest => .ok (.wildcard, rest)
  | _ =>
    let name := cs.takeWhile isNameChar
    if name.isEmpty then .error (cs, .nameMissing)
    else .ok (.field (String.ofList name), cs.dropWhile isNameChar)

def closeBracket (s : Segment) : List Char → Step
  | ']' :: rest => .ok (s, rest)
  | cs => .error (cs, .bracketOpen)

def isQuote (c : Char) : Bool :=
  c == '\x27' || c == '"'

def isIndexChar (c : Char) : Bool :=
  c == '-' || isDigit c

def readBracket (cs : List Char) : Step :=
  match cs with
  | '*' :: rest => closeBracket .wildcard rest
  | [] => .error ([], .indexInvalid "")
  | c :: rest =>
    if isQuote c then
      match rest.dropWhile (· != c) with
      | [] => .error ([], .quoteOpen)
      | _ :: after => closeBracket (.field (String.ofList (rest.takeWhile (· != c)))) after
    else
      let text := (c :: rest).takeWhile isIndexChar
      let after := (c :: rest).dropWhile isIndexChar
      match readInt64 text with
      | some n => closeBracket (.index n) after
      | none => .error (after, .indexInvalid (String.ofList text))

private theorem length_dropWhile_lt {p : Char → Bool} {cs : List Char}
    (h : (cs.takeWhile p).isEmpty = false) : (cs.dropWhile p).length < cs.length := by
  have hsplit := congrArg List.length (List.takeWhile_append_dropWhile (p := p) (l := cs))
  have hne : 0 < (cs.takeWhile p).length := by
    cases hw : cs.takeWhile p with
    | nil => simp [hw] at h
    | cons c rest => simp
  rw [List.length_append] at hsplit
  omega

theorem readName_length {cs rest : List Char} {s : Segment} (h : readName cs = .ok (s, rest)) :
    rest.length < cs.length := by
  unfold readName at h
  split at h
  · cases h; simp
  · dsimp only at h
    split at h
    · cases h
    · rename_i hne
      cases h
      exact length_dropWhile_lt (by simpa using hne)

private theorem closeBracket_length {cs rest : List Char} {s t : Segment}
    (h : closeBracket s cs = .ok (t, rest)) : rest.length < cs.length := by
  unfold closeBracket at h
  split at h
  · cases h; simp
  · cases h

theorem readBracket_length {cs rest : List Char} {s : Segment}
    (h : readBracket cs = .ok (s, rest)) : rest.length < cs.length := by
  unfold readBracket at h
  split at h
  · exact Nat.lt_succ_of_lt (closeBracket_length h)
  · cases h
  · rename_i c more _
    split at h
    · split at h
      · cases h
      · rename_i head after heq
        have h1 := closeBracket_length h
        have h2 := (List.dropWhile_suffix (l := more) (· != c)).length_le
        rw [heq] at h2
        simp only [List.length_cons] at h2 ⊢
        omega
    · dsimp only at h
      split at h
      · have h1 := closeBracket_length h
        have h2 := (List.dropWhile_suffix (l := c :: more) isIndexChar).length_le
        omega
      · cases h

def readRest (cs : List Char) : Except ReadError (List Segment) :=
  match cs with
  | [] => .ok []
  | '.' :: '.' :: '[' :: rest =>
    match _h : readBracket rest with
    | .error e => .error e
    | .ok (s, after) => (readRest after).map (.descend s :: ·)
  | '.' :: '.' :: rest =>
    match _h : readName rest with
    | .error e => .error e
    | .ok (s, after) => (readRest after).map (.descend s :: ·)
  | '.' :: rest =>
    match _h : readName rest with
    | .error e => .error e
    | .ok (s, after) => (readRest after).map (s :: ·)
  | '[' :: rest =>
    match _h : readBracket rest with
    | .error e => .error e
    | .ok (s, after) => (readRest after).map (s :: ·)
  | c :: rest => .error (c :: rest, .unexpectedChar c)
  termination_by cs.length
  decreasing_by
  · have := readBracket_length _h; simp; omega
  · have := readName_length _h; simp; omega
  · have := readName_length _h; simp; omega
  · have := readBracket_length _h; simp; omega

/-- The segments of a trimmed text. A dollar sign in front stands for the whole value. -/
def readAll (cs : List Char) : Except ReadError (List Segment) :=
  match cs with
  | '$' :: rest => readRest rest
  | c :: rest =>
    if isNameChar c || c == '*' then
      match readName (c :: rest) with
      | .error e => .error e
      | .ok (s, after) => (readRest after).map (s :: ·)
    else readRest (c :: rest)
  | [] => .ok []

/-- The path that a text spells. A fault tells how many characters stand before it, counted
without the blanks in front. -/
def compile (text : String) : Except Fault Path :=
  let cs := Text.trimChars text.toList
  match readAll cs with
  | .ok segments => .ok ⟨segments⟩
  | .error (rest, reason) =>
    let place := cs.length - rest.length
    .error (.malformed ("path '" ++ text ++ "' @" ++ toString place) reason)

/-! ## Selecting -/

def element? (items : List Json) (n : Int) : Option Json :=
  if n < 0 then
    if n.natAbs ≤ items.length then items[items.length - n.natAbs]? else none
  else items[n.toNat]?

mutual
/-- The member of an object, or of every object in a list; in a list, a name that spells an
integer is an index. -/
def selectField (name : String) : Json → List Json
  | .obj members => (Members.value? name members).toList
  | .arr items =>
    match readInt64 name.toList with
    | some n => (element? items n).toList
    | none => selectFields name items
  | _ => []

def selectFields (name : String) : List Json → List Json
  | [] => []
  | v :: rest => selectField name v ++ selectFields name rest
end

mutual
def nodes : Json → List Json
  | .arr items => .arr items :: nodesOfItems items
  | .obj members => .obj members :: nodesOfMembers members
  | v => [v]

def nodesOfItems : List Json → List Json
  | [] => []
  | v :: rest => nodes v ++ nodesOfItems rest

def nodesOfMembers : List (String × Json) → List Json
  | [] => []
  | (_, v) :: rest => nodes v ++ nodesOfMembers rest
end

def children : Json → List Json
  | .arr items => items
  | .obj members => members.map (·.2)
  | _ => []

def selectDirect : Segment → Json → List Json
  | .field name, .obj members => (Members.value? name members).toList
  | .index n, .arr items => (element? items n).toList
  | .wildcard, v => children v
  | _, _ => []

def select : Segment → Json → List Json
  | .field name, v => selectField name v
  | .index n, .arr items => (element? items n).toList
  | .index n, .obj members => (Members.value? (toString n) members).toList
  | .index _, _ => []
  | .wildcard, v => children v
  | .descend s, v => (nodes v).flatMap (selectDirect s)

def execute (p : Path) (record : Json) : List Json :=
  p.segments.foldl (fun values s => values.flatMap (select s)) [record]

def first? (p : Path) (record : Json) : Option Json :=
  (p.execute record).head?

end Path

end Verdict
