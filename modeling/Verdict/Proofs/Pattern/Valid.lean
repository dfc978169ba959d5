import Verdict.Proofs.Operand.Usable
import Verdict.Proofs.Pattern.Room

/-!
# Patterns that are valid

The patterns that steps go by without naming them.  A delimiter is spelled so that every character
stands for itself: it is read as one word, which only the room of its automaton can be too small
for.  The patterns of a plain split and of a measurement hold sets of bounded size.
-/

namespace Verdict.Pattern

open Verdict.Text

namespace Reader

/-! ## Characters that stand for themselves -/

theorem literal_single (c : Char) : literal {} c false = some (.word [c]) := by
  simp only [literal, foldIf, Bool.not_true, Bool.false_and, Bool.false_eq_true, if_false,
    Expr.ofSet, CharSet.single, CharSet.single?, if_true, Char.ofNat_toNat]

variable {c : Char} (fuel : Nat) (parts : List (Option Spelled)) (rest : List Char)

theorem readParts_plain (h : isMeta c = false) :
    readParts (fuel + 1) parts { rest := c :: rest } =
      readParts fuel (some ⟨.word [c], 0⟩ :: parts) { rest } := by
  rw [readParts]
  simp only [skip, Bool.false_eq_true, if_false]
  -- every character that the reader treats in a way of its own is one that would be escaped
  split <;> rename_i heq <;> cases heq
  all_goals first
    | exact absurd h (by decide)
    | rw [literal_single]; rfl

theorem readEscape_meta (h : isMeta c = true) :
    readEscape {} (c :: rest) = some (.char c false, rest) := by
  rw [readEscape, if_pos (by rw [isEscapable, h, Bool.true_or])]
  -- no letter is a character that would be escaped
  all_goals exact fun heq => absurd (heq ▸ h) (by decide)

theorem readParts_escaped (h : isMeta c = true) :
    readParts (fuel + 1) parts { rest := '\\' :: c :: rest } =
      readParts fuel (some ⟨.word [c], 0⟩ :: parts) { rest } := by
  rw [readParts]
  simp only [skip, Bool.false_eq_true, if_false]
  rw [readEscape_meta rest h]
  change (literal {} c false >>= fun e => readParts fuel (some ⟨e, 0⟩ :: parts) { rest }) = _
  rw [literal_single]
  rfl

theorem readParts_escapedChars (cs : List Char) (fuel : Nat) (parts : List (Option Spelled)) :
    readParts (cs.length + 1 + fuel) parts { rest := escaped cs } =
      some (sequence (parts.reverse ++ cs.map fun c => some ⟨.word [c], 0⟩), { rest := [] }) := by
  induction cs generalizing parts with
  | nil =>
    rw [List.map_nil, List.append_nil, List.length_nil, Nat.zero_add, Nat.add_comm, escaped,
      List.flatMap_nil, readParts]
    rfl
  | cons c cs ih =>
    have hfuel : (c :: cs).length + 1 + fuel = (cs.length + 1 + fuel) + 1 := by
      rw [List.length_cons]
      omega
    have hstep : readParts (cs.length + 1 + fuel + 1) parts { rest := escaped (c :: cs) } =
        readParts (cs.length + 1 + fuel) (some ⟨.word [c], 0⟩ :: parts) { rest := escaped cs } := by
      rw [escaped, List.flatMap_cons]
      cases h : isMeta c with
      | true => exact readParts_escaped _ parts _ h
      | false => exact readParts_plain _ parts _ h
    rw [hfuel, hstep, ih, List.reverse_cons, List.append_assoc]
    rfl

/-- The words of single characters are one word. -/
theorem concat_letters (cs : List Char) :
    Expr.concat (cs.map fun c => .word [c]) = if cs = [] then .empty else .word cs := by
  have hpush : (cs.map fun c => Expr.word [c]).foldr Expr.pushPart [] =
      if cs = [] then [] else [.word cs] := by
    induction cs with
    | nil => rfl
    | cons c rest ih =>
      rw [List.map_cons, List.foldr_cons, ih]
      cases rest <;> rfl
  have hparts : (cs.map fun c => Expr.word [c]).flatMap Expr.parts = cs.map fun c => .word [c] := by
    rw [List.flatMap_map]
    exact (List.map_eq_flatMap ..).symm
  rw [Expr.concat, hparts, hpush]
  split <;> rfl

theorem single?_unions_single (c : Char) : (CharSet.unions [.single c]).single? = some c := by
  simp [CharSet.unions, CharSet.ofRanges, CharSet.single, CharSet.join, CharSet.single?]

theorem choice_word (cs : List Char) : Expr.choice [.word cs] = .word cs := by
  match cs with
  | [] => rfl
  | [c] =>
    have hset : Expr.choice [.word [c]] = .ofSet (.unions [.single c]) := rfl
    rw [hset, Expr.ofSet, single?_unions_single]
  | _ :: _ :: _ => rfl

/-- The letters of a text in a row, which are as deep as one of them or a level deeper. -/
theorem sequence_letters (cs : List Char) :
    (sequence (cs.map fun c => some ⟨.word [c], 0⟩)).expr =
        (if cs = [] then .empty else .word cs) ∧
      (sequence (cs.map fun c => some ⟨.word [c], 0⟩)).height ≤ 1 := by
  have hheight : (cs.map fun c => (⟨.word [c], 0⟩ : Spelled)).foldl (fun h e => max h e.height) 0 =
      0 := by
    induction cs with
    | nil => rfl
    | cons c rest ih => exact ih
  have hletters : (cs.map fun c => some (⟨.word [c], 0⟩ : Spelled)).filterMap id =
      cs.map fun c => ⟨.word [c], 0⟩ := by
    rw [List.filterMap_map]
    exact congrFun List.filterMap_eq_map cs
  rw [sequence, hletters, together, hheight]
  constructor
  · rw [← concat_letters, List.map_map]
    rfl
  · simp only
    split <;> omega

theorem length_le_escaped (cs : List Char) : cs.length ≤ (escaped cs).length := by
  induction cs with
  | nil => exact Nat.le_refl _
  | cons c rest ih =>
    rw [escaped, List.flatMap_cons, List.length_append, List.length_cons, Nat.add_comm]
    refine Nat.add_le_add ?_ ih
    split <;> exact Nat.le_add_left 1 _

theorem read_escape (text : String) :
    read (escape text) =
      some (if text.toList = [] then .empty else .word text.toList, [], 0) := by
  have hrest : (escape text).toList = escaped text.toList := String.toList_ofList
  have hlength := length_le_escaped text.toList
  have hfuel : ∃ fuel, 2 * (escaped text.toList).length + 3 =
      (text.toList.length + 1 + fuel) + 1 :=
    ⟨2 * (escaped text.toList).length + 1 - text.toList.length, by omega⟩
  obtain ⟨fuel, hfuel⟩ := hfuel
  have hbranches : readBranches (2 * (escaped text.toList).length + 3) []
      { rest := escaped text.toList } =
      some (choice [sequence (text.toList.map fun c => some ⟨.word [c], 0⟩)], { rest := [] }) := by
    rw [hfuel, readBranches, readParts_escapedChars text.toList fuel []]
    rfl
  obtain ⟨hexpr, hheight⟩ := sequence_letters text.toList
  have hone : (choice [sequence (text.toList.map fun c => some ⟨.word [c], 0⟩)]).height ≤
      maxHeight := Nat.le_trans (Nat.max_le.mpr ⟨Nat.zero_le 1, hheight⟩) (by decide)
  have hchoice : (choice [sequence (text.toList.map fun c => some ⟨.word [c], 0⟩)]).expr =
      if text.toList = [] then .empty else .word text.toList := by
    change Expr.choice [(sequence _).expr] = _
    rw [hexpr]
    split
    · rfl
    · exact choice_word _
  rw [read, hrest, hbranches]
  simp only [List.isEmpty_nil, Bool.true_and, decide_eq_true hone, if_true, hchoice]

end Reader

/-! ## Validity -/

theorem isValid_of_read {text : String} {e : Expr} {names : List (String × Nat)} {count : Nat}
    (h : Reader.read text = some (e, names, count)) (hroom : e.room + 216 ≤ Automaton.maxBytes) :
    IsValid text := by
  rw [IsValid, compile, h]
  simp only [Automaton.fits_of_room_le hroom, if_true, Option.isSome_some]

/-- Any text can be a delimiter unless it has far more than a hundred thousand bytes. -/
theorem isValid_escape {text : String} (h : text.utf8ByteSize ≤ 0x1FFFD) :
    IsValid (escape text) := by
  refine isValid_of_read (Reader.read_escape text) ?_
  have hbytes : (Automaton.encoding text.toList).length = text.utf8ByteSize := by
    rw [← String.size_toByteArray, ← String.utf8Encode_toList]
    exact List.size_toByteArray.symm
  split
  · decide
  · rw [Expr.room, hbytes, Automaton.maxBytes]
    omega

section Classes

open Category Property

theorem room_set_le {s : CharSet} {n : Nat} (h : Ascending s.ranges.toList)
    (hsize : s.ranges.size ≤ n) : (Expr.set s).room ≤ 1156 * n + 4656 := by
  have hsequences := Utf8.length_sequences_le h
  rw [Expr.room]
  omega

theorem room_digits_le : (Expr.set decimalNumber).room ≤ 86732 :=
  room_set_le (CharSet.ascending_ofRanges _) size_decimalNumber_le

theorem room_spaces_le : (Expr.set whiteSpace).room ≤ 16216 :=
  room_set_le (CharSet.ascending_ofRanges _) size_whiteSpace_le

theorem room_wordChars_le : (Expr.set wordChar).room ≤ 4818240 :=
  room_set_le (CharSet.ascending_ofRanges _) size_wordChar_le

/-- A plain split goes by commas and the blanks behind them. -/
theorem isValid_commas : IsValid ",\\s*" := by
  have hread : Reader.read ",\\s*" =
      some (.seq (.word [',']) (.rep 0 none true (.set whiteSpace)), [], 0) := rfl
  refine isValid_of_read hread ?_
  have hspaces := room_spaces_le
  generalize Expr.set whiteSpace = spaces at hspaces ⊢
  have hcomma : (Automaton.encoding [',']).length = 1 := by decide
  simp only [Expr.room, hcomma, Option.getD_none, Nat.max_self, Nat.max_zero]
  rw [Automaton.maxBytes]
  omega

def measured (digits blanks chars : Expr) : Expr :=
  .seq (.look .textStart) <| .seq (.capture 1 <| .seq (.rep 0 (some 1) true (.word ['-'])) <|
    .seq (.rep 1 none true digits) <|
    .seq (.rep 0 none true (.seq (.word [',']) (.rep 3 (some 3) true digits))) <|
    .rep 0 (some 1) true (.seq (.word ['.']) (.rep 1 none true digits))) <|
  .seq (.rep 0 none true blanks) <|
  .seq (.rep 0 (some 1) true (.capture 2 (.rep 1 none true chars))) (.look .textEnd)

theorem room_measured (digits blanks chars : Expr) : (measured digits blanks chars).room =
    5 * digits.room + blanks.room + chars.room + 1644 := by
  have hsign : (Automaton.encoding ['-']).length = 1 := by decide
  have hcomma : (Automaton.encoding [',']).length = 1 := by decide
  have hpoint : (Automaton.encoding ['.']).length = 1 := by decide
  have hthree : max 1 3 = 3 := by decide
  simp only [measured, Expr.room, hsign, hcomma, hpoint, hthree, Option.getD_none,
    Option.getD_some, Nat.max_self, Nat.max_zero, Nat.zero_max]
  omega

theorem isValid_measurementPattern : IsValid Action.measurementPattern := by
  have hread : Reader.read Action.measurementPattern =
      some (measured (.set decimalNumber) (.set whiteSpace) (.set wordChar), [], 2) := rfl
  refine isValid_of_read hread ?_
  have hdigits := room_digits_le
  have hspaces := room_spaces_le
  have hchars := room_wordChars_le
  rw [room_measured, Automaton.maxBytes]
  generalize (Expr.set decimalNumber).room = digits at hdigits ⊢
  generalize (Expr.set whiteSpace).room = spaces at hspaces ⊢
  generalize (Expr.set wordChar).room = chars at hchars ⊢
  omega

end Classes

end Verdict.Pattern

namespace Verdict.Action

open Pattern

theorem usable_split_none : (split none).Usable := isValid_commas

theorem usable_split {delimiter : String} (h : delimiter.utf8ByteSize ≤ 0x1FFFD) :
    (split (some delimiter)).Usable :=
  isValid_escape h

theorem usable_measurement (assume target : Option String) : (measurement assume target).Usable :=
  isValid_measurementPattern

end Verdict.Action
