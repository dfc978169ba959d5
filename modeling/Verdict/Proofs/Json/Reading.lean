import Verdict.Proofs.Json.Members
import Verdict.Proofs.Json.Numeral
import Verdict.Proofs.Json.Text

/-!
# Text is read as what it was written from

The text of a value spells a document, however deep lists and objects nest in the value.  The
document has a value as long as no more of them nest than a reader allows and its numbers have
values: the same but for numbers that come back as others.
-/

namespace Verdict

namespace Json

/-! ## Values that are read again -/

mutual
def Proper : Json → Prop
  | arr items => ProperItems items
  | obj members => Members.Sorted members ∧ ProperMembers members
  | null | bool _ | num _ | str _ => True

def ProperItems : List Json → Prop
  | [] => True
  | v :: rest => v.Proper ∧ ProperItems rest

def ProperMembers : List (String × Json) → Prop
  | [] => True
  | (_, v) :: rest => v.Proper ∧ ProperMembers rest
end

theorem properItems_iff {items : List Json} : ProperItems items ↔ ∀ v ∈ items, v.Proper := by
  induction items with
  | nil => exact ⟨fun _ => nofun, fun _ => trivial⟩
  | cons v rest ih => rw [ProperItems, ih, List.forall_mem_cons]

theorem properMembers_iff {members : List (String × Json)} :
    ProperMembers members ↔ ∀ m ∈ members, m.2.Proper := by
  induction members with
  | nil => exact ⟨fun _ => nofun, fun _ => trivial⟩
  | cons m rest ih => rw [ProperMembers, ih, List.forall_mem_cons]

mutual
def nesting : Json → Nat
  | arr items => itemNesting items + 1
  | obj members => memberNesting members + 1
  | null | bool _ | num _ | str _ => 0

def itemNesting : List Json → Nat
  | [] => 0
  | v :: rest => max v.nesting (itemNesting rest)

def memberNesting : List (String × Json) → Nat
  | [] => 0
  | (_, v) :: rest => max v.nesting (memberNesting rest)
end

mutual
def numbers : Json → List Number
  | num n => [n]
  | arr items => itemNumbers items
  | obj members => memberNumbers members
  | null | bool _ | str _ => []

def itemNumbers : List Json → List Number
  | [] => []
  | v :: rest => v.numbers ++ itemNumbers rest

def memberNumbers : List (String × Json) → List Number
  | [] => []
  | (_, v) :: rest => v.numbers ++ memberNumbers rest
end

/-- The texts of the numbers have values. -/
def HaveValues (ns : List Number) : Prop :=
  ∀ n ∈ ns, (Document.reread n).isSome

instance (ns : List Number) : Decidable (HaveValues ns) :=
  inferInstanceAs (Decidable (∀ n ∈ ns, (Document.reread n).isSome))

/-- The texts of the numbers are read as what they were. -/
def ComeBack (ns : List Number) : Prop :=
  ∀ n ∈ ns, Document.reread n = some n

instance (ns : List Number) : Decidable (ComeBack ns) :=
  inferInstanceAs (Decidable (∀ n ∈ ns, Document.reread n = some n))

theorem ComeBack.haveValues {ns : List Number} (h : ComeBack ns) : HaveValues ns := by
  intro n hn
  rw [h n hn]
  rfl

mutual
/-- A value with its numbers as their texts are read. -/
def asRead : Json → Json
  | num n => num ((Document.reread n).getD n)
  | arr items => arr (asReadItems items)
  | obj members => obj (asReadMembers members)
  | null => null
  | bool b => bool b
  | str s => str s

def asReadItems : List Json → List Json
  | [] => []
  | v :: rest => v.asRead :: asReadItems rest

def asReadMembers : List (String × Json) → List (String × Json)
  | [] => []
  | (k, v) :: rest => (k, v.asRead) :: asReadMembers rest
end

mutual
theorem asRead_eq_self : (v : Json) → ComeBack v.numbers → v.asRead = v
  | num n, h => by rw [asRead, h n (List.mem_singleton_self n), Option.getD_some]
  | arr items, h => congrArg arr (asReadItems_eq_self items h)
  | obj members, h => congrArg obj (asReadMembers_eq_self members h)
  | null, _ | bool _, _ | str _, _ => rfl

theorem asReadItems_eq_self : (items : List Json) → ComeBack (itemNumbers items) →
    asReadItems items = items
  | [], _ => rfl
  | v :: rest, h => by
    obtain ⟨hv, hrest⟩ := List.forall_mem_append.mp h
    rw [asReadItems, asRead_eq_self v hv, asReadItems_eq_self rest hrest]

theorem asReadMembers_eq_self : (members : List (String × Json)) →
    ComeBack (memberNumbers members) → asReadMembers members = members
  | [], _ => rfl
  | (k, v) :: rest, h => by
    obtain ⟨hv, hrest⟩ := List.forall_mem_append.mp h
    rw [asReadMembers, asRead_eq_self v hv, asReadMembers_eq_self rest hrest]
end

theorem names_asReadMembers (members : List (String × Json)) :
    Members.names (asReadMembers members) = Members.names members := by
  induction members with
  | nil => rfl
  | cons m rest ih => exact congrArg (m.1 :: ·) ih

end Json

namespace Document

/-! ## Strings -/

/-- A piece of a string that stands for a character. -/
def Stands (p : Piece) (c : Char) : Prop :=
  p = .char c ∨ p = .unit c.toNat ∧ c.toNat < 0x20

theorem hexUnit_control {n : Nat} (h : n < 0x20) :
    hexUnit '0' '0' (Json.hexDigit (n / 16)) (Json.hexDigit (n % 16)) = some n := by
  have hall : ∀ n < 0x20,
      hexUnit '0' '0' (Json.hexDigit (n / 16)) (Json.hexDigit (n % 16)) = some n := by
    decide
  exact hall n h

theorem readPieces_letter {c d : Char} (hc : c ≠ 'u') (h : escaped c = some d) (rest : List Char) :
    readPieces ('\\' :: c :: rest) =
      (readPieces rest).map fun (ps, rest) => (.char d :: ps, rest) := by
  rw [readPieces, h]
  · cases readPieces rest <;> rfl
  · exact fun _ _ _ _ _ hu _ => hc hu

theorem readPieces_escape (c : Char) (rest : List Char) :
    ∃ p, Stands p c ∧ readPieces (Json.escape c ++ rest) =
      (readPieces rest).map fun (ps, rest) => (p :: ps, rest) := by
  unfold Json.escape
  split
  · exact ⟨.char _, .inl rfl, readPieces_letter (by decide) rfl rest⟩
  · exact ⟨.char _, .inl rfl, readPieces_letter (by decide) rfl rest⟩
  · exact ⟨.char _, .inl rfl, readPieces_letter (by decide) rfl rest⟩
  · exact ⟨.char _, .inl rfl, readPieces_letter (by decide) rfl rest⟩
  · exact ⟨.char _, .inl rfl, readPieces_letter (by decide) rfl rest⟩
  · exact ⟨.char _, .inl rfl, readPieces_letter (by decide) rfl rest⟩
  · exact ⟨.char _, .inl rfl, readPieces_letter (by decide) rfl rest⟩
  · rename_i hquote hbackslash _ _ _ _ _
    dsimp only
    split
    · rename_i h
      refine ⟨.unit c.toNat, .inr ⟨rfl, h⟩, ?_⟩
      simp only [List.cons_append, List.nil_append]
      rw [readPieces, hexUnit_control h]
      cases readPieces rest <;> rfl
    · rename_i h
      refine ⟨.char c, .inl rfl, ?_⟩
      rw [List.singleton_append, readPieces]
      · rw [if_neg (by simpa using ⟨not_lt.mp h, hbackslash⟩)]
        cases readPieces rest <;> rfl
      · exact hquote
      · exact fun _ _ _ _ _ hc _ => hbackslash hc
      · exact fun _ _ hc _ => hbackslash hc

/-- A unit that is no half of a pair stands for itself. -/
theorem joinPieces_unit {n : Nat} (h : n < 0xD800) (ps : List Piece) :
    joinPieces (.unit n :: ps) = (joinPieces ps).map (Char.ofNat n :: ·) := by
  rcases ps with _ | ⟨_ | lo, ps⟩
  · conv_lhs => rw [joinPieces.eq_def]
    exact if_neg (by omega)
  · conv_lhs => rw [joinPieces.eq_def]
    exact if_neg (by omega)
  · conv_lhs => rw [joinPieces.eq_def]
    exact (if_neg (by omega)).trans (if_neg (by omega))

theorem joinPieces_eq {ps : List Piece} {cs : List Char} (h : List.Forall₂ Stands ps cs) :
    joinPieces ps = some cs := by
  induction h with
  | nil => rfl
  | cons hp _ ih =>
    rcases hp with rfl | ⟨rfl, hlt⟩
    · rw [joinPieces, ih]
      rfl
    · rw [joinPieces_unit (by omega), ih, Char.ofNat_toNat]
      rfl

theorem readPieces_flatMap (cs rest : List Char) :
    ∃ ps, List.Forall₂ Stands ps cs ∧
      readPieces (cs.flatMap Json.escape ++ '"' :: rest) = some (ps, rest) := by
  induction cs with
  | nil => exact ⟨[], .nil, by rw [List.flatMap_nil, List.nil_append, readPieces]⟩
  | cons c cs ih =>
    obtain ⟨ps, hps, hread⟩ := ih
    obtain ⟨p, hp, hescape⟩ := readPieces_escape c (cs.flatMap Json.escape ++ '"' :: rest)
    refine ⟨p :: ps, .cons hp hps, ?_⟩
    rw [List.flatMap_cons, List.append_assoc, hescape, hread]
    rfl

theorem readString_quoted (s : String) (rest : List Char) :
    readString (s.toList.flatMap Json.escape ++ '"' :: rest) = some (some s, rest) := by
  obtain ⟨ps, hps, hread⟩ := readPieces_flatMap s.toList rest
  rw [readString, hread, Option.bind_eq_bind, Option.bind_some]
  dsimp only
  rw [joinPieces_eq hps, Option.map_some, String.ofList_toList]
  rfl

/-! ## Documents of values -/

mutual
def ofValue : Json → Document
  | .null => null
  | .bool b => bool b
  | .num n => number (reread n)
  | .str s => string (some s)
  | .arr items => array (ofItems items)
  | .obj members => object (ofMembers members)

def ofItems : List Json → List Document
  | [] => []
  | v :: rest => ofValue v :: ofItems rest

def ofMembers : List (String × Json) → List (Option String × Document)
  | [] => []
  | (k, v) :: rest => (some k, ofValue v) :: ofMembers rest
end

/-! ## Trees -/

def Solid (cs : List Char) : Prop :=
  ∀ c ∈ cs.head?, c ≠ ' ' ∧ c ≠ '\n' ∧ c ≠ '\t' ∧ c ≠ '\r'

theorem skipBlank_of_solid {cs : List Char} (h : Solid cs) : skipBlank cs = cs := by
  refine Text.dropWhile_eq_self fun c hc => ?_
  obtain ⟨h₁, h₂, h₃, h₄⟩ := h c hc
  simp [h₁, h₂, h₃, h₄]

theorem solid_of_begins {v : Json} {c : Char} (h : v.Begins c) (cs : List Char) :
    Solid (c :: cs) := by
  intro d hd
  cases hd
  refine ⟨?_, ?_, ?_, ?_⟩ <;>
  · rintro rfl
    cases v with
    | bool b => cases b <;> cases h
    | _ => cases h

theorem solid_chars (v : Json) (r : List Char) : Solid (v.chars ++ r) := by
  obtain ⟨c, cs, hv, hc⟩ := v.exists_begins
  rw [hv]
  exact solid_of_begins hc _

theorem ends_itemTail (items : List Json) (r : List Char) : Ends (Json.itemTail items ++ r) := by
  intro c hc
  cases items <;> cases hc <;> decide

theorem ends_memberTail (members : List (String × Json)) (r : List Char) :
    Ends (Json.memberTail members ++ r) := by
  intro c hc
  cases members <;> cases hc <;> decide

theorem readTree_num (n : Number) {r : List Char} (hr : Ends r) (fuel : Nat) :
    readTree (fuel + 1) (n.text.toList ++ r) = some (number (reread n), r) := by
  have hread := readNumber_text n hr
  obtain ⟨c, cs, hc, hnumeric⟩ := (Json.num n).exists_begins
  have hsolid := solid_chars (.num n) r
  rw [Json.chars] at hc hsolid
  change Decimal.isNumeric c = true at hnumeric
  have hother : ∀ d, Decimal.isNumeric d = false → c ≠ d := by
    rintro d hd rfl
    rw [hnumeric] at hd
    cases hd
  have hletter : ∀ d, Decimal.isNumeric d = false → (c == d) = false := fun d hd =>
    beq_eq_false_iff_ne.mpr (hother d hd)
  rw [readTree, skipBlank_of_solid hsolid]
  rw [hc, List.cons_append] at hread ⊢
  split
  · rename_i h
    cases h
  · rename_i h
    exact absurd (List.cons.inj h).1 (hother _ rfl)
  · rename_i h
    exact absurd (List.cons.inj h).1 (hother _ rfl)
  · rename_i h
    exact absurd (List.cons.inj h).1 (hother _ rfl)
  · rename_i h
    cases h
    rw [hletter 't' rfl, hletter 'f' rfl, hletter 'n' rfl]
    exact hread

theorem readTree_quoted (s : String) (r : List Char) (fuel : Nat) :
    readTree (fuel + 1) ((Json.quoted s).toList ++ r) = some (string (some s), r) := by
  have hsolid : Solid ((Json.quoted s).toList ++ r) := solid_chars (.str s) r
  rw [readTree, skipBlank_of_solid hsolid, Json.toList_quoted, List.cons_append, List.append_assoc]
  simp only [List.singleton_append, readString_quoted, Option.map_some]

theorem readTree_open_items (v : Json) (r : List Char) (fuel : Nat) :
    readTree (fuel + 1) ('[' :: (v.chars ++ r)) =
      (readItems fuel (v.chars ++ r)).map fun (items, rest) => (array items, rest) := by
  have hopen : skipBlank ('[' :: (v.chars ++ r)) = '[' :: (v.chars ++ r) := rfl
  rw [readTree, hopen]
  simp only
  rw [skipBlank_of_solid (solid_chars v r)]
  split
  · rename_i h
    exact absurd h (Json.chars_ne_end v r _)
  · cases readItems fuel (v.chars ++ r) <;> rfl

theorem readTree_open_members (k : String) (r : List Char) (fuel : Nat) :
    readTree (fuel + 1) ('{' :: ((Json.quoted k).toList ++ r)) =
      (readMembers fuel ((Json.quoted k).toList ++ r)).map
        fun (members, rest) => (object members, rest) := by
  have hopen : skipBlank ('{' :: ((Json.quoted k).toList ++ r)) =
      '{' :: ((Json.quoted k).toList ++ r) := rfl
  have hsolid : Solid ((Json.quoted k).toList ++ r) := solid_chars (.str k) r
  rw [readTree, hopen]
  simp only
  rw [skipBlank_of_solid hsolid]
  split
  · rename_i h
    rw [Json.toList_quoted] at h
    cases h
  · cases readMembers fuel ((Json.quoted k).toList ++ r) <;> rfl

/-- The text of a value is read as its document, wherever it stands. -/
def Reads (v : Json) : Prop :=
  ∀ {r : List Char} {fuel : Nat}, Ends r → 2 * v.chars.length ≤ fuel →
    readTree fuel (v.chars ++ r) = some (ofValue v, r)

theorem length_chars_pos (v : Json) : 0 < v.chars.length := by
  obtain ⟨c, cs, hv, -⟩ := v.exists_begins
  rw [hv]
  exact Nat.succ_pos _

theorem readItems_of_reads {v : Json} {rest : List Json} (h : ∀ w ∈ v :: rest, Reads w)
    {r : List Char} {fuel : Nat} (hfuel : 2 * (v.chars ++ Json.itemTail rest).length ≤ fuel) :
    readItems fuel (v.chars ++ (Json.itemTail rest ++ r)) = some (ofItems (v :: rest), r) := by
  induction rest generalizing v fuel with
  | nil =>
    rw [List.length_append, Json.itemTail, List.length_singleton] at hfuel
    obtain ⟨fuel, rfl⟩ := Nat.exists_eq_succ_of_ne_zero (n := fuel) (by omega)
    rw [readItems, h v List.mem_cons_self (ends_itemTail [] r) (by omega)]
    rfl
  | cons w rest ih =>
    have hpos := length_chars_pos v
    rw [List.length_append, Json.itemTail, List.length_cons] at hfuel
    obtain ⟨fuel, rfl⟩ := Nat.exists_eq_succ_of_ne_zero (n := fuel) (by omega)
    have hrest : readItems fuel (w.chars ++ (Json.itemTail rest ++ r)) =
        some (ofItems (w :: rest), r) :=
      ih (fun u hu => h u (List.mem_cons_of_mem v hu)) (by omega)
    rw [readItems, h v List.mem_cons_self (ends_itemTail (w :: rest) r) (by omega)]
    change (do
      let (items, rest) ← readItems fuel (w.chars ++ Json.itemTail rest ++ r)
      return (ofValue v :: items, rest)) = _
    rw [List.append_assoc, hrest]
    rfl

/-- After a name stand a colon and the value. -/
theorem readMembers_member {v : Json} (k : String) (h : Reads v) {r : List Char} (hr : Ends r)
    {fuel : Nat} (hfuel : 2 * v.chars.length ≤ fuel) :
    readMembers (fuel + 1) ((Json.quoted k).toList ++ ':' :: (v.chars ++ r)) =
      match skipBlank r with
      | ',' :: rest => do
        let (members, rest) ← readMembers fuel rest
        return ((some k, ofValue v) :: members, rest)
      | '}' :: rest => return ([(some k, ofValue v)], rest)
      | _ => none := by
  have hsolid : Solid ((Json.quoted k).toList ++ ':' :: (v.chars ++ r)) := solid_chars (.str k) _
  have hcolon : skipBlank (':' :: (v.chars ++ r)) = ':' :: (v.chars ++ r) := rfl
  rw [readMembers, skipBlank_of_solid hsolid, Json.toList_quoted, List.cons_append,
    List.append_assoc, List.singleton_append]
  simp only [readString_quoted, Option.bind_eq_bind, Option.bind_some, hcolon]
  exact (congrArg (Option.bind · _) (h hr hfuel)).trans rfl

theorem readMembers_of_reads {k : String} {v : Json} {rest : List (String × Json)}
    (h : ∀ m ∈ (k, v) :: rest, Reads m.2) {r : List Char} {fuel : Nat}
    (hfuel :
      2 * ((Json.quoted k).toList ++ ':' :: (v.chars ++ Json.memberTail rest)).length ≤ fuel) :
    readMembers fuel ((Json.quoted k).toList ++ ':' :: (v.chars ++ (Json.memberTail rest ++ r))) =
      some (ofMembers ((k, v) :: rest), r) := by
  induction rest generalizing k v fuel with
  | nil =>
    rw [List.length_append, List.length_cons, List.length_append] at hfuel
    obtain ⟨fuel, rfl⟩ := Nat.exists_eq_succ_of_ne_zero (n := fuel) (by omega)
    rw [readMembers_member k (h (k, v) List.mem_cons_self) (ends_memberTail [] r)
      (by dsimp only; omega)]
    rfl
  | cons m rest ih =>
    obtain ⟨j, w⟩ := m
    rw [List.length_append, List.length_cons, List.length_append, Json.memberTail,
      List.length_cons] at hfuel
    obtain ⟨fuel, rfl⟩ := Nat.exists_eq_succ_of_ne_zero (n := fuel) (by omega)
    have hrest : readMembers fuel
        ((Json.quoted j).toList ++ ':' :: (w.chars ++ (Json.memberTail rest ++ r))) =
          some (ofMembers ((j, w) :: rest), r) :=
      ih (fun u hu => h u (List.mem_cons_of_mem _ hu)) (by omega)
    rw [readMembers_member k (h (k, v) List.mem_cons_self) (ends_memberTail _ r)
      (by dsimp only; omega)]
    change (do
      let (members, rest) ←
        readMembers fuel ((Json.quoted j).toList ++ ':' :: (w.chars ++ Json.memberTail rest) ++ r)
      return ((some k, ofValue v) :: members, rest)) = _
    rw [List.append_assoc, List.cons_append, List.append_assoc, hrest]
    rfl

mutual
theorem reads : (v : Json) → v.Proper → Reads v
  | .num n, _, r, fuel + 1, hr, _ => readTree_num n hr fuel
  | .str s, _, r, fuel + 1, _, _ => readTree_quoted s r fuel
  | .null, _, r, fuel + 1, _, _ => rfl
  | .bool true, _, r, fuel + 1, _, _ => rfl
  | .bool false, _, r, fuel + 1, _, _ => rfl
  | .arr [], _, r, fuel + 1, _, _ => rfl
  | .obj [], _, r, fuel + 1, _, _ => rfl
  | .arr (v :: rest), h, r, fuel + 1, _, hfuel => by
    rw [Json.chars, List.length_cons] at hfuel
    rw [Json.chars, List.cons_append, List.append_assoc, readTree_open_items,
      readItems_of_reads (reads_items (v :: rest) h) (by omega)]
    rfl
  | .obj ((k, v) :: rest), h, r, fuel + 1, _, hfuel => by
    rw [Json.chars, List.length_cons] at hfuel
    have hle : 2 * ((Json.quoted k).toList ++ ':' :: (v.chars ++ Json.memberTail rest)).length ≤
        fuel := by omega
    have hread := readMembers_of_reads (r := r) (reads_members ((k, v) :: rest) h.2) hle
    rw [Json.chars, List.cons_append, List.append_assoc, List.cons_append, List.append_assoc,
      readTree_open_members, hread]
    rfl
  | v, _, r, 0, _, hfuel => absurd hfuel (by have := length_chars_pos v; omega)

theorem reads_items : (items : List Json) → Json.ProperItems items → ∀ w ∈ items, Reads w
  | [], _ => nofun
  | v :: rest, h => List.forall_mem_cons.mpr ⟨reads v h.1, reads_items rest h.2⟩

theorem reads_members : (members : List (String × Json)) → Json.ProperMembers members →
    ∀ m ∈ members, Reads m.2
  | [], _ => nofun
  | (_, v) :: rest, h => List.forall_mem_cons.mpr ⟨reads v h.1, reads_members rest h.2⟩
end

/-- A whole text spells the document of the value that it was written from. -/
theorem read_text {v : Json} (h : v.Proper) : Document.read v.text = some (ofValue v) := by
  have htree : readTree (2 * v.chars.length + 2) (v.chars ++ []) = some (ofValue v, []) :=
    reads v h nofun (by omega)
  rw [List.append_nil] at htree
  rw [Document.read, Json.toList_text]
  simp only [htree]
  rfl

/-! ## Values -/

/-- Two parts that have values under conditions. -/
theorem bind_ite {α β γ : Type} (p q : Prop) [Decidable p] [Decidable q] (a : α) (b : β)
    (f : α → β → γ) :
    ((if p then some a else none).bind fun x =>
      (if q then some b else none).bind fun y => some (f x y)) =
      if p ∧ q then some (f a b) else none := by
  by_cases hp : p
  · by_cases hq : q
    · rw [if_pos hp, if_pos hq, if_pos ⟨hp, hq⟩]
      rfl
    · rw [if_pos hp, if_neg hq, if_neg fun h : p ∧ q => hq h.2]
      rfl
  · rw [if_neg hp, if_neg fun h : p ∧ q => hp h.1]
    rfl

/-- Parts fit a depth and have values if each of them does. -/
theorem fits_append {m n depth : Nat} {ms ns : List Number} :
    ((m ≤ depth ∧ Json.HaveValues ms) ∧ n ≤ depth ∧ Json.HaveValues ns) ↔
      max m n ≤ depth ∧ Json.HaveValues (ms ++ ns) := by
  rw [Json.HaveValues, Json.HaveValues, Json.HaveValues, List.forall_mem_append, max_le_iff,
    and_and_and_comm]

mutual
theorem value?_ofValue : (v : Json) → v.Proper → ∀ depth,
    value? depth (ofValue v) =
      if v.nesting ≤ depth ∧ Json.HaveValues v.numbers then some v.asRead else none
  | .null, _, _ | .bool _, _, _ | .str _, _, _ => (if_pos ⟨Nat.zero_le _, nofun⟩).symm
  | .num n, _, depth => by
    rw [ofValue, value?, Json.asRead]
    cases h : reread n with
    | none =>
      rw [if_neg fun hv => by
        have := hv.2 n (List.mem_singleton_self n)
        rw [h] at this
        cases this]
      rfl
    | some m =>
      rw [if_pos ⟨Nat.zero_le _, List.forall_mem_singleton.mpr (by rw [h]; rfl)⟩]
      rfl
  | .arr items, h, depth => by
    rw [ofValue, value?, Json.nesting, Json.numbers, Json.asRead]
    cases depth with
    | zero => exact (if_neg fun hv => Nat.not_succ_le_zero _ hv.1).symm
    | succ depth =>
      rw [if_neg (Nat.succ_ne_zero depth), Nat.add_sub_cancel, itemValues_ofItems items h]
      simp only [Nat.add_le_add_iff_right]
      split <;> rfl
  | .obj members, h, depth => by
    rw [ofValue, value?, Json.nesting, Json.numbers, Json.asRead]
    cases depth with
    | zero => exact (if_neg fun hv => Nat.not_succ_le_zero _ hv.1).symm
    | succ depth =>
      have hsorted : Members.Sorted (Json.asReadMembers members) := by
        rw [Members.Sorted, Json.names_asReadMembers]
        exact h.1
      rw [if_neg (Nat.succ_ne_zero depth), Nat.add_sub_cancel, memberValues_ofMembers members h.2]
      simp only [Nat.add_le_add_iff_right]
      split
      · rw [Option.map_some, Members.gather_of_sorted hsorted]
      · rfl

theorem itemValues_ofItems : (items : List Json) → Json.ProperItems items → ∀ depth,
    itemValues depth (ofItems items) =
      if Json.itemNesting items ≤ depth ∧ Json.HaveValues (Json.itemNumbers items) then
        some (Json.asReadItems items) else none
  | [], _, _ => (if_pos ⟨Nat.zero_le _, nofun⟩).symm
  | v :: rest, h, depth => by
    rw [ofItems, itemValues, value?_ofValue v h.1, itemValues_ofItems rest h.2]
    exact (bind_ite _ _ _ _ (· :: ·)).trans (if_congr fits_append rfl rfl)

theorem memberValues_ofMembers : (members : List (String × Json)) → Json.ProperMembers members →
    ∀ depth, memberValues depth (ofMembers members) =
      if Json.memberNesting members ≤ depth ∧ Json.HaveValues (Json.memberNumbers members) then
        some (Json.asReadMembers members) else none
  | [], _, _ => (if_pos ⟨Nat.zero_le _, nofun⟩).symm
  | (k, v) :: rest, h, depth => by
    rw [ofMembers, memberValues, value?_ofValue v h.1, memberValues_ofMembers rest h.2]
    exact (bind_ite _ _ _ _ fun w ms => (k, w) :: ms).trans (if_congr fits_append rfl rfl)
end

end Document

/-- The text of a value is read as the value, with its numbers as they are read, unless too much
nests in it or a number has no value. -/
theorem Json.read_text {v : Json} (h : v.Proper) :
    Json.read v.text =
      if v.nesting ≤ Document.maxNesting ∧ Json.HaveValues v.numbers then some v.asRead
      else none := by
  rw [Json.read, Document.read_text h]
  exact Document.value?_ofValue v h _

end Verdict
