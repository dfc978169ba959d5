import Mathlib
import Verdict.Proofs.Decimal.Text

/-!
# JSON text tells values apart

Compact text can be read in one way only.  Numbers end before the first character that is in no
number, texts before the first quote that is not escaped, and lists and objects at their brackets.
-/

namespace Verdict

/-! ## Numbers -/

namespace Number

open Decimal

theorem isDigit_or_minus_of_mem_repr {n : Int} {c : Char} (h : c ∈ (Int.repr n).toList) :
    c.isDigit = true ∨ c = '-' := by
  cases n with
  | ofNat m =>
    rw [Int.repr, Nat.toList_repr] at h
    exact .inl (isDigit_of_mem_digits h)
  | negSucc m =>
    rw [Int.repr, String.toList_append, Nat.toList_repr] at h
    rcases List.mem_append.mp h with h | h
    · exact .inr (List.mem_singleton.mp h)
    · exact .inl (isDigit_of_mem_digits h)

theorem point_or_exponent_mem_magnitudeText (b : Binary) :
    '.' ∈ magnitudeText b ∨ 'e' ∈ magnitudeText b := by
  unfold magnitudeText
  dsimp only
  split
  · exact .inl (by decide)
  · split
    · exact .inl (by simp)
    · exact .inr (by simp)

theorem isNumeric_of_mem_text {n : Number} {c : Char} (h : c ∈ n.text.toList) :
    isNumeric c = true := by
  cases n with
  | int n =>
    rcases isDigit_or_minus_of_mem_repr h with h | rfl
    · exact isNumeric_of_isDigit h
    · rfl
  | float x finite =>
    rw [text, toList_floatText] at h
    rcases List.mem_append.mp h with h | h
    · split at h
      · rw [List.mem_singleton.mp h]
        rfl
      · cases h
    · exact isNumeric_of_mem_magnitudeText h

theorem toList_text_ne_nil (n : Number) : n.text.toList ≠ [] := by
  cases n with
  | int n =>
    cases n with
    | ofNat m =>
      change (Nat.repr m).toList ≠ []
      rw [Nat.toList_repr]
      exact Nat.toDigits_ne_nil
    | negSucc m =>
      change ("-" ++ Nat.repr (m + 1)).toList ≠ []
      rw [String.toList_append]
      exact nofun
  | float x finite =>
    intro h
    rw [text, toList_floatText, List.append_eq_nil_iff] at h
    have hmem := point_or_exponent_mem_magnitudeText (.ofFloat x)
    rw [h.2] at hmem
    exact hmem.elim nofun nofun

/-- Whole numbers are written without point and exponent, others never. -/
theorem text_int_ne_text_float {n : Int} {x : Float} {finite : x.isFinite = true} :
    (int n).text ≠ (float x finite).text := by
  intro h
  have hmem : ∀ c, c ∈ magnitudeText (.ofFloat x) → c.isDigit = true ∨ c = '-' := by
    intro c hc
    apply isDigit_or_minus_of_mem_repr (n := n)
    change c ∈ (int n).text.toList
    rw [h, text, toList_floatText]
    exact List.mem_append_right _ hc
  rcases point_or_exponent_mem_magnitudeText (.ofFloat x) with hpoint | hexponent
  · exact absurd (hmem _ hpoint) (by decide)
  · exact absurd (hmem _ hexponent) (by decide)

theorem text_injective {m n : Number} (h : m.text = n.text) : m = n := by
  cases m with
  | int m =>
    cases n with
    | int n => exact congrArg int (Int.repr_injective h)
    | float x finite => exact absurd h text_int_ne_text_float
  | float x finite =>
    cases n with
    | int n => exact absurd h.symm text_int_ne_text_float
    | float y finite' =>
      cases floatText_injective h
      rfl

end Number

namespace Json

/-! ## Texts between quotes -/

def hexValue (c : Char) : Nat :=
  if c.isDigit then c.toNat - '0'.toNat else c.toNat - 'a'.toNat + 10

def unescape : List Char → Option (Char × List Char)
  | '\\' :: 'u' :: _ :: _ :: high :: low :: rest =>
    some (Char.ofNat (16 * hexValue high + hexValue low), rest)
  | '\\' :: c :: rest =>
    match c with
    | 'b' => some ('\x08', rest)
    | 'f' => some ('\x0c', rest)
    | 'n' => some ('\n', rest)
    | 'r' => some ('\r', rest)
    | 't' => some ('\t', rest)
    | c => some (c, rest)
  | c :: rest => some (c, rest)
  | [] => none

theorem unescape_control {n : Nat} (h : n < 0x20) :
    16 * hexValue (hexDigit (n / 16)) + hexValue (hexDigit (n % 16)) = n := by
  have hall : ∀ n < 0x20,
      16 * hexValue (hexDigit (n / 16)) + hexValue (hexDigit (n % 16)) = n := by
    decide
  exact hall n h

theorem unescape_escape (c : Char) (rest : List Char) :
    unescape (escape c ++ rest) = some (c, rest) := by
  unfold escape
  split
  · rfl
  · rfl
  · rfl
  · rfl
  · rfl
  · rfl
  · rfl
  · dsimp only
    split
    · rename_i h
      simp only [List.cons_append, List.nil_append, unescape, unescape_control h, Char.ofNat_toNat]
    · rename_i hbackslash _ _ _ _ _ _
      rw [List.cons_append, List.nil_append, unescape]
      · exact fun _ _ _ _ _ h _ => hbackslash h
      · exact fun _ _ h _ => hbackslash h

theorem escape_append_ne_quote (c : Char) (r r' : List Char) : escape c ++ r ≠ '"' :: r' := by
  intro h
  have hread := unescape_escape c r
  rw [h, unescape] at hread
  · cases hread
    cases h
  · exact fun _ _ _ _ _ h _ => nomatch h
  · exact fun _ _ h _ => nomatch h

theorem flatMap_escape_injective {s : List Char} : {t r r' : List Char} →
    s.flatMap escape ++ '"' :: r = t.flatMap escape ++ '"' :: r' → s = t ∧ r = r' := by
  induction s with
  | nil =>
    intro t r r' h
    cases t with
    | nil => exact ⟨rfl, (List.cons.inj h).2⟩
    | cons c t =>
      rw [List.flatMap_cons, List.append_assoc] at h
      exact absurd h.symm (escape_append_ne_quote c _ _)
  | cons c s ih =>
    intro t r r' h
    cases t with
    | nil =>
      rw [List.flatMap_cons, List.append_assoc] at h
      exact absurd h (escape_append_ne_quote c _ _)
    | cons d t =>
      rw [List.flatMap_cons, List.flatMap_cons, List.append_assoc, List.append_assoc] at h
      have hread := congrArg unescape h
      rw [unescape_escape, unescape_escape, Option.some.injEq, Prod.mk.injEq] at hread
      obtain ⟨rfl, hrest⟩ := hread
      obtain ⟨rfl, hr⟩ := ih hrest
      exact ⟨rfl, hr⟩

theorem toList_quoted (s : String) :
    (quoted s).toList = '"' :: (s.toList.flatMap escape ++ ['"']) := by
  rw [quoted, String.toList_ofList]
  rfl

theorem quoted_injective {s t : String} {r r' : List Char}
    (h : (quoted s).toList ++ r = (quoted t).toList ++ r') : s = t ∧ r = r' := by
  rw [toList_quoted, toList_quoted, List.cons_append, List.cons_append, List.append_assoc,
    List.append_assoc] at h
  obtain ⟨hst, hr⟩ := flatMap_escape_injective (List.cons.inj h).2
  exact ⟨String.toList_inj.mp hst, hr⟩

/-! ## Values -/

mutual
/-- Compact text as characters; the items of a list and the members of an object are followed by
what separates or ends them. -/
def chars : Json → List Char
  | num n => n.text.toList
  | str s => (quoted s).toList
  | arr [] => ['[', ']']
  | arr (v :: rest) => '[' :: (chars v ++ itemTail rest)
  | obj [] => ['{', '}']
  | obj ((k, v) :: rest) => '{' :: ((quoted k).toList ++ ':' :: (chars v ++ memberTail rest))
  | null => ['n', 'u', 'l', 'l']
  | bool true => ['t', 'r', 'u', 'e']
  | bool false => ['f', 'a', 'l', 's', 'e']

def itemTail : List Json → List Char
  | [] => [']']
  | v :: rest => ',' :: (chars v ++ itemTail rest)

def memberTail : List (String × Json) → List Char
  | [] => ['}']
  | (k, v) :: rest => ',' :: ((quoted k).toList ++ ':' :: (chars v ++ memberTail rest))
end

mutual
theorem toList_text : (v : Json) → v.text.toList = v.chars
  | null | bool true | bool false | num n | str s => rfl
  | arr [] => rfl
  | arr (v :: rest) => by
    rw [text, chars, itemTexts, String.append_assoc, String.toList_append, toList_itemTexts,
      toList_text v]
    rfl
  | obj [] => rfl
  | obj ((k, v) :: rest) => by
    rw [text, chars, memberTexts, String.append_assoc, String.toList_append, toList_memberTexts,
      String.toList_append, String.toList_append, toList_text v, List.append_assoc,
      List.append_assoc, show ":".toList = [':'] from rfl, List.singleton_append]
    exact List.singleton_append

theorem toList_itemTexts (first : String) : (rest : List Json) →
    (",".intercalate (first :: itemTexts rest) ++ "]").toList = first.toList ++ itemTail rest
  | [] => by
    rw [itemTexts, String.intercalate_singleton, String.toList_append]
    rfl
  | v :: rest => by
    rw [itemTexts, String.intercalate_cons_cons, String.append_assoc, String.append_assoc,
      String.toList_append, String.toList_append, toList_itemTexts v.text rest, toList_text v]
    rfl

theorem toList_memberTexts (first : String) : (rest : List (String × Json)) →
    (",".intercalate (first :: memberTexts rest) ++ "\x7d").toList =
      first.toList ++ memberTail rest
  | [] => by
    rw [memberTexts, String.intercalate_singleton, String.toList_append]
    rfl
  | (k, v) :: rest => by
    rw [memberTexts, String.intercalate_cons_cons, String.append_assoc, String.append_assoc,
      String.toList_append, String.toList_append, toList_memberTexts _ rest,
      String.toList_append, String.toList_append, toList_text v, List.append_assoc,
      List.append_assoc, show ":".toList = [':'] from rfl, List.singleton_append,
      show ",".toList = [','] from rfl, List.singleton_append, memberTail]
end

/-! ## Reading in one way only -/

/-- What may follow a value: nothing, or a character that is in no number. -/
def Stops (r : List Char) : Prop :=
  ∀ c, r.head? = some c → Decimal.isNumeric c = false

theorem takeWhile_of_stops {r : List Char} (h : Stops r) : r.takeWhile Decimal.isNumeric = [] := by
  cases r with
  | nil => rfl
  | cons c r => exact List.takeWhile_cons_of_neg (by rw [h c rfl]; decide)

theorem number_injective {m n : Number} {r r' : List Char} (hr : Stops r) (hr' : Stops r')
    (h : m.text.toList ++ r = n.text.toList ++ r') : m = n ∧ r = r' := by
  have htext := congrArg (List.takeWhile Decimal.isNumeric) h
  rw [List.takeWhile_append_of_pos fun c hc => Number.isNumeric_of_mem_text hc,
    List.takeWhile_append_of_pos fun c hc => Number.isNumeric_of_mem_text hc,
    takeWhile_of_stops hr, takeWhile_of_stops hr', List.append_nil, List.append_nil] at htext
  exact ⟨Number.text_injective (String.toList_inj.mp htext), List.append_cancel_left (htext ▸ h)⟩

def Begins : Json → Char → Prop
  | null, c => c = 'n'
  | bool true, c => c = 't'
  | bool false, c => c = 'f'
  | num _, c => Decimal.isNumeric c = true
  | str _, c => c = '"'
  | arr _, c => c = '['
  | obj _, c => c = '{'

theorem exists_begins (v : Json) : ∃ c cs, v.chars = c :: cs ∧ v.Begins c := by
  cases v with
  | null => exact ⟨_, _, rfl, rfl⟩
  | bool b => cases b <;> exact ⟨_, _, rfl, rfl⟩
  | num n =>
    cases h : n.text.toList with
    | nil => exact absurd h n.toList_text_ne_nil
    | cons c cs => exact ⟨c, cs, h, Number.isNumeric_of_mem_text (h ▸ List.mem_cons_self)⟩
  | str s => exact ⟨_, _, toList_quoted s, rfl⟩
  | arr items => cases items <;> exact ⟨_, _, rfl, rfl⟩
  | obj members => cases members <;> exact ⟨_, _, rfl, rfl⟩

theorem Begins.not_ends {v : Json} {c : Char} (h : v.Begins c) : c ≠ ']' := by
  rintro rfl
  cases v with
  | bool b => cases b <;> cases h
  | _ => cases h

theorem chars_ne_end (v : Json) (r r' : List Char) : v.chars ++ r ≠ ']' :: r' := by
  obtain ⟨c, cs, hv, hc⟩ := v.exists_begins
  rw [hv, List.cons_append]
  exact fun h => hc.not_ends (List.cons.inj h).1

theorem begins_of_chars {v w : Json} {c : Char} {cs r r' : List Char} (hv : v.chars = c :: cs)
    (h : v.chars ++ r = w.chars ++ r') : w.Begins c := by
  obtain ⟨d, ds, hw, hd⟩ := w.exists_begins
  rw [hv, hw] at h
  rw [(List.cons.inj h).1]
  exact hd

theorem stops_itemTail (items : List Json) (r : List Char) : Stops (itemTail items ++ r) := by
  intro c hc
  cases items <;> cases hc <;> rfl

theorem stops_memberTail (members : List (String × Json)) (r : List Char) :
    Stops (memberTail members ++ r) := by
  intro c hc
  cases members <;> cases hc <;> rfl

/-- Values of one kind: both empty or neither, if they are lists or objects, and the same truth
value. -/
inductive SameShape : Json → Json → Prop
  | null : SameShape null null
  | bool (b : Bool) : SameShape (bool b) (bool b)
  | num (m n : Number) : SameShape (num m) (num n)
  | str (s t : String) : SameShape (str s) (str t)
  | noItems : SameShape (arr []) (arr [])
  | items (v w : Json) (rest rest' : List Json) : SameShape (arr (v :: rest)) (arr (w :: rest'))
  | noMembers : SameShape (obj []) (obj [])
  | members (m m' : String × Json) (rest rest' : List (String × Json)) :
      SameShape (obj (m :: rest)) (obj (m' :: rest'))

/-- Values that begin with the same character are both lists, both objects, or alike in shape. -/
theorem kind_of_begins {v w : Json} {c : Char} (hv : v.Begins c) (hw : w.Begins c) :
    SameShape v w ∨ (∃ items items', v = arr items ∧ w = arr items') ∨
      ∃ members members', v = obj members ∧ w = obj members' := by
  rcases v with _ | (_ | _) | m | s | items | members <;>
    rcases w with _ | (_ | _) | n | t | items' | members' <;>
    first
    | exact .inl .null
    | exact .inl (.bool _)
    | exact .inl (.num m n)
    | exact .inl (.str s t)
    | exact .inr (.inl ⟨items, items', rfl, rfl⟩)
    | exact .inr (.inr ⟨members, members', rfl, rfl⟩)
    | (cases hv; cases hw)
    | (cases hw; cases hv)

theorem sameShape_of_chars {v w : Json} {r r' : List Char} (h : v.chars ++ r = w.chars ++ r') :
    SameShape v w := by
  obtain ⟨c, cs, hchars, hv⟩ := v.exists_begins
  obtain hshape | ⟨items, items', rfl, rfl⟩ | ⟨members, members', rfl, rfl⟩ :=
    kind_of_begins hv (begins_of_chars hchars h)
  · exact hshape
  · rcases items with _ | ⟨v, rest⟩ <;> rcases items' with _ | ⟨w, rest'⟩
    · exact .noItems
    · simp only [chars, List.cons_append, List.append_assoc, List.cons.injEq, true_and] at h
      exact absurd h.symm (chars_ne_end w _ _)
    · simp only [chars, List.cons_append, List.append_assoc, List.cons.injEq, true_and] at h
      exact absurd h (chars_ne_end v _ _)
    · exact .items v w rest rest'
  · rcases members with _ | ⟨m, rest⟩ <;> rcases members' with _ | ⟨m', rest'⟩
    · exact .noMembers
    · simp only [chars, toList_quoted, List.cons_append, List.cons.injEq, true_and] at h
      cases h.1
    · simp only [chars, toList_quoted, List.cons_append, List.cons.injEq, true_and] at h
      cases h.1
    · exact .members m m' rest rest'

mutual
theorem chars_injective : (v : Json) → ∀ {w : Json} {r r' : List Char}, Stops r → Stops r' →
    v.chars ++ r = w.chars ++ r' → v = w ∧ r = r'
  | null, w, r, r', _, _, h => by
    cases sameShape_of_chars h
    exact ⟨rfl, List.append_cancel_left h⟩
  | bool b, w, r, r', _, _, h => by
    cases sameShape_of_chars h
    exact ⟨rfl, List.append_cancel_left h⟩
  | num m, w, r, r', hr, hr', h => by
    cases sameShape_of_chars h
    rw [chars, chars] at h
    obtain ⟨rfl, hrest⟩ := number_injective hr hr' h
    exact ⟨rfl, hrest⟩
  | str s, w, r, r', _, _, h => by
    cases sameShape_of_chars h
    obtain ⟨rfl, hrest⟩ := quoted_injective h
    exact ⟨rfl, hrest⟩
  | arr [], w, r, r', _, _, h => by
    cases sameShape_of_chars h
    exact ⟨rfl, List.append_cancel_left h⟩
  | arr (v :: rest), w, r, r', _, _, h => by
    cases sameShape_of_chars h
    simp only [chars, List.cons_append, List.append_assoc, List.cons.injEq, true_and] at h
    obtain ⟨rfl, htail⟩ := chars_injective v (stops_itemTail rest r) (stops_itemTail _ r') h
    obtain ⟨rfl, hr⟩ := itemTail_injective rest htail
    exact ⟨rfl, hr⟩
  | obj [], w, r, r', _, _, h => by
    cases sameShape_of_chars h
    exact ⟨rfl, List.append_cancel_left h⟩
  | obj ((k, v) :: rest), w, r, r', _, _, h => by
    cases sameShape_of_chars h
    simp only [chars, List.cons_append, List.append_assoc, List.cons.injEq, true_and] at h
    obtain ⟨rfl, hmember⟩ := quoted_injective h
    obtain ⟨rfl, htail⟩ := chars_injective v (stops_memberTail rest r) (stops_memberTail _ r')
      (List.cons.inj hmember).2
    obtain ⟨rfl, hr⟩ := memberTail_injective rest htail
    exact ⟨rfl, hr⟩

theorem itemTail_injective : (items : List Json) → ∀ {items' : List Json} {r r' : List Char},
    itemTail items ++ r = itemTail items' ++ r' → items = items' ∧ r = r'
  | [], items', r, r', h => by
    cases items' with
    | nil => exact ⟨rfl, (List.cons.inj h).2⟩
    | cons v' rest' => cases (List.cons.inj h).1
  | v :: rest, items', r, r', h => by
    cases items' with
    | nil => cases (List.cons.inj h).1
    | cons v' rest' =>
      simp only [itemTail, List.cons_append, List.append_assoc, List.cons.injEq, true_and] at h
      obtain ⟨rfl, htail⟩ := chars_injective v (stops_itemTail rest r) (stops_itemTail rest' r') h
      obtain ⟨rfl, hr⟩ := itemTail_injective rest htail
      exact ⟨rfl, hr⟩

theorem memberTail_injective : (members : List (String × Json)) →
    ∀ {members' : List (String × Json)} {r r' : List Char},
    memberTail members ++ r = memberTail members' ++ r' → members = members' ∧ r = r'
  | [], members', r, r', h => by
    cases members' with
    | nil => exact ⟨rfl, (List.cons.inj h).2⟩
    | cons m rest' => cases (List.cons.inj h).1
  | (k, v) :: rest, members', r, r', h => by
    cases members' with
    | nil => cases (List.cons.inj h).1
    | cons m rest' =>
      obtain ⟨k', v'⟩ := m
      simp only [memberTail, List.cons_append, List.append_assoc, List.cons.injEq, true_and] at h
      obtain ⟨rfl, hmember⟩ := quoted_injective h
      obtain ⟨rfl, htail⟩ := chars_injective v (stops_memberTail rest r)
        (stops_memberTail rest' r') (List.cons.inj hmember).2
      obtain ⟨rfl, hr⟩ := memberTail_injective rest htail
      exact ⟨rfl, hr⟩
end

theorem text_injective {v w : Json} (h : v.text = w.text) : v = w := by
  have hlist := congrArg String.toList h
  rw [toList_text, toList_text] at hlist
  have hstops : Stops [] := fun _ h => nomatch h
  exact (chars_injective v hstops hstops (by rw [hlist])).1

end Json

end Verdict
