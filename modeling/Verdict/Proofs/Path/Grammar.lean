import Mathlib.Algebra.Group.Nat.Defs
import Mathlib.Logic.ExistsUnique
import Verdict.Path.Basic
import Verdict.Proofs.Decimal.Reading
import Verdict.Proofs.Fault
import Verdict.Proofs.Text

/-!
# The grammar of paths

Which texts spell a path, and which one. The grammar is stated for itself, as relations between
the characters of a text and segments; the reader accepts what the grammar derives, with the same
segments, and nothing else.
-/

namespace Verdict.Path

/-! ## Derivations -/

def NameChar (c : Char) : Prop :=
  c ∉ ['.', '[', ']', '*', '\x27', '"'] ∧ Text.isBlank c = false

/-- A plain name in front of `rest`, as long as it can be. -/
structure Name (cs rest : List Char) : Prop where
  nonempty : cs ≠ []
  chars : ∀ c ∈ cs, NameChar c
  longest : ∀ c ∈ rest.head?, ¬NameChar c

/-- A star or a plain name, the segment it spells, and what is left of the text. -/
inductive Plain : List Char → Segment → List Char → Prop where
  | star (rest : List Char) : Plain ('*' :: rest) .wildcard rest
  | name {cs rest : List Char} (h : Name cs rest) :
      Plain (cs ++ rest) (.field (String.ofList cs)) rest

/-- A decimal of 64 bits. A minus may stand in front, a plus may not. -/
inductive Index : List Char → Int → Prop where
  | positive {ds : List Char} (h : Decimal.Digits ds) (hn : Nat.ofDigitChars 10 ds 0 < 2 ^ 63) :
      Index ds (Nat.ofDigitChars 10 ds 0)
  | negative {ds : List Char} (h : Decimal.Digits ds) (hn : Nat.ofDigitChars 10 ds 0 ≤ 2 ^ 63) :
      Index ('-' :: ds) (-(Nat.ofDigitChars 10 ds 0 : Int))

/-- A segment in brackets, and what is left of the text. A quoted name may be empty, and holds
any character but its quote. -/
inductive Bracket : List Char → Segment → List Char → Prop where
  | star (rest : List Char) : Bracket ('[' :: '*' :: ']' :: rest) .wildcard rest
  | quoted {q : Char} {cs : List Char} (hq : q = '\x27' ∨ q = '"') (hcs : q ∉ cs)
      (rest : List Char) :
      Bracket ('[' :: q :: (cs ++ q :: ']' :: rest)) (.field (String.ofList cs)) rest
  | index {ds : List Char} {n : Int} (h : Index ds n) (rest : List Char) :
      Bracket ('[' :: (ds ++ ']' :: rest)) (.index n) rest

/-- The segments after the first one. Two dots stand for a descent. What follows a name starts
with a dot or a bracket, so that a name never ends early. -/
inductive Tail : List Char → List Segment → Prop where
  | nil : Tail [] []
  | plain {cs rest : List Char} {s : Segment} {ss : List Segment} (h : Plain cs s rest)
      (t : Tail rest ss) : Tail ('.' :: cs) (s :: ss)
  | bracket {cs rest : List Char} {s : Segment} {ss : List Segment} (h : Bracket cs s rest)
      (t : Tail rest ss) : Tail cs (s :: ss)
  | deepPlain {cs rest : List Char} {s : Segment} {ss : List Segment} (h : Plain cs s rest)
      (t : Tail rest ss) : Tail ('.' :: '.' :: cs) (.descend s :: ss)
  | deepBracket {cs rest : List Char} {s : Segment} {ss : List Segment} (h : Bracket cs s rest)
      (t : Tail rest ss) : Tail ('.' :: '.' :: cs) (.descend s :: ss)

/-- A whole path without blanks at its ends. A dollar sign in front is never part of a name. -/
inductive Spells : List Char → List Segment → Prop where
  | root {cs : List Char} {ss : List Segment} (t : Tail cs ss) : Spells ('$' :: cs) ss
  | plain {cs rest : List Char} {s : Segment} {ss : List Segment} (h : Plain cs s rest)
      (hroot : cs.head? ≠ some '$') (t : Tail rest ss) : Spells cs (s :: ss)
  | bare {cs : List Char} {ss : List Segment} (t : Tail cs ss) : Spells cs ss

/-- The text spells the segments, up to blanks at its ends. -/
def Derives (text : String) (segments : List Segment) : Prop :=
  ∃ cs, Text.Trims text.toList cs ∧ Spells cs segments

/-! ## Single segments -/

theorem isNameChar_iff {c : Char} : isNameChar c = true ↔ NameChar c := by
  simp [isNameChar, NameChar, and_assoc]

theorem isNameChar_eq_false_iff {c : Char} : isNameChar c = false ↔ ¬NameChar c := by
  rw [← isNameChar_iff, Bool.not_eq_true]

theorem name_iff {cs name rest : List Char} :
    cs = name ++ rest ∧ Name name rest ↔
      name ≠ [] ∧ cs.takeWhile isNameChar = name ∧ cs.dropWhile isNameChar = rest := by
  rw [Text.span_eq_iff]
  simp only [isNameChar_iff, isNameChar_eq_false_iff]
  constructor
  · rintro ⟨hcs, hne, hchars, hlongest⟩
    exact ⟨hne, hcs, hchars, hlongest⟩
  · rintro ⟨hne, hcs, hchars, hlongest⟩
    exact ⟨hcs, hne, hchars, hlongest⟩

theorem Name.exists_head {name rest : List Char} (h : Name name rest) :
    ∃ c more, name = c :: more ∧ NameChar c := by
  obtain ⟨c, more, rfl⟩ := List.exists_cons_of_ne_nil h.nonempty
  exact ⟨c, more, rfl, h.chars c List.mem_cons_self⟩

theorem readName_of_ne_star {cs : List Char} (h : cs.head? ≠ some '*') :
    readName cs =
      if (cs.takeWhile isNameChar).isEmpty then .error (cs, .nameMissing)
      else .ok (.field (String.ofList (cs.takeWhile isNameChar)), cs.dropWhile isNameChar) := by
  unfold readName
  split
  · exact absurd rfl h
  · rfl

theorem readName_eq_ok_iff {cs rest : List Char} {s : Segment} :
    readName cs = .ok (s, rest) ↔ Plain cs s rest := by
  constructor
  · intro h
    by_cases hstar : cs.head? = some '*'
    · obtain ⟨more, rfl⟩ := List.head?_eq_some_iff.mp hstar
      cases h
      exact .star rest
    · rw [readName_of_ne_star hstar] at h
      split at h
      · cases h
      · rename_i hne
        cases h
        obtain ⟨hcs, hname⟩ := name_iff.mpr ⟨by simpa using hne, Eq.refl _, Eq.refl _⟩
        conv => arg 1; rw [hcs]
        exact .name hname
  · intro h
    cases h with
    | star => rfl
    | @name name _ h =>
      obtain ⟨hne, hname, hrest⟩ := name_iff.mp ⟨rfl, h⟩
      have hstar : (name ++ rest).head? ≠ some '*' := by
        obtain ⟨c, more, rfl, hc⟩ := h.exists_head
        rintro ⟨⟩
        exact hc.1 (by decide)
      rw [readName_of_ne_star hstar, hname, hrest]
      simp [hne]

theorem closeBracket_eq_ok_iff {cs rest : List Char} {s t : Segment} :
    closeBracket s cs = .ok (t, rest) ↔ cs = ']' :: rest ∧ t = s := by
  unfold closeBracket
  split <;> grind

theorem isIndexChar_iff {c : Char} : isIndexChar c = true ↔ c = '-' ∨ c.isDigit = true := by
  simp [isIndexChar, Decimal.isDigit_eq]

theorem index_iff {cs : List Char} {n : Int} :
    Index cs n ↔ (∀ c ∈ cs, isIndexChar c = true) ∧ Decimal.readInt64 cs = some n := by
  simp only [Decimal.readInt64_eq_some_iff, Decimal.isSigned_iff, isIndexChar_iff]
  constructor
  · intro h
    cases h with
    | positive h hn =>
      exact ⟨fun c hc => Or.inr (h.2 c hc), cs, h, by omega, Or.inl ⟨Or.inl rfl, rfl⟩⟩
    | @negative ds h hn =>
      refine ⟨?_, ds, h, by omega, Or.inr ⟨rfl, rfl⟩⟩
      simpa using fun c hc => Or.inr (h.2 c hc)
  · rintro ⟨hchars, ds, h, hn, hcs⟩
    obtain ⟨rfl | rfl, rfl⟩ | ⟨rfl, rfl⟩ := hcs
    · exact .positive h (by omega)
    · have := hchars '+' List.mem_cons_self
      simp at this
    · exact .negative h (by omega)

theorem isQuote_iff {c : Char} : isQuote c = true ↔ c = '\x27' ∨ c = '"' := by
  simp [isQuote]

theorem quoted_iff {q : Char} {cs name rest : List Char} :
    cs.takeWhile (· != q) = name ∧ cs.dropWhile (· != q) = q :: rest ↔
      cs = name ++ q :: rest ∧ q ∉ name := by
  rw [Text.span_eq_iff]
  constructor
  · rintro ⟨hcs, hname, -⟩
    exact ⟨hcs, fun hq => by simpa using hname q hq⟩
  · rintro ⟨hcs, hq⟩
    refine ⟨hcs, fun c hc => ?_, by simp⟩
    rw [bne_iff_ne]
    rintro rfl
    exact hq hc

theorem readBracket_quoted {q : Char} (hq : isQuote q = true) (name rest : List Char)
    (hname : q ∉ name) :
    readBracket (q :: (name ++ q :: rest)) =
      closeBracket (.field (String.ofList name)) rest := by
  obtain ⟨htake, hdrop⟩ := quoted_iff.mpr ⟨rfl, hname⟩
  unfold readBracket
  split
  · rename_i heq
    cases heq
    cases hq
  · rename_i heq
    cases heq
  · rename_i heq
    cases heq
    rw [if_pos hq, hdrop, htake]

theorem readBracket_number {ds rest : List Char} {n : Int} (h : Index ds n)
    (hrest : ∀ c ∈ rest.head?, isIndexChar c = false) :
    readBracket (ds ++ rest) = closeBracket (.index n) rest := by
  obtain ⟨hchars, hread⟩ := index_iff.mp h
  obtain ⟨htake, hdrop⟩ := Text.span_eq_iff.mpr ⟨Eq.refl (ds ++ rest), hchars, hrest⟩
  cases ds with
  | nil => cases hread
  | cons c ds =>
    have hc := hchars c List.mem_cons_self
    unfold readBracket
    split
    · rename_i heq
      cases heq
      cases hc
    · rename_i heq
      cases heq
    · rename_i heq
      cases heq
      have hq : isQuote c = false := by
        rw [isIndexChar_iff] at hc
        rw [← Bool.not_eq_true, isQuote_iff]
        rintro (rfl | rfl) <;> simp at hc
      rw [hq, if_neg (by decide)]
      simp only [List.append_eq, ← List.cons_append, htake, hdrop, hread]

theorem readBracket_eq_ok_iff {cs rest : List Char} {s : Segment} :
    readBracket cs = .ok (s, rest) ↔ Bracket ('[' :: cs) s rest := by
  constructor
  · intro h
    unfold readBracket at h
    split at h
    · obtain ⟨rfl, rfl⟩ := closeBracket_eq_ok_iff.mp h
      exact .star rest
    · cases h
    · rename_i q more _
      split at h
      · rename_i hq
        split at h
        · cases h
        · rename_i last after hdrop
          obtain ⟨rfl, rfl⟩ := closeBracket_eq_ok_iff.mp h
          have hlast : last = q := by
            have hstop := (Text.span_eq_iff.mp ⟨rfl, hdrop⟩).2.2 last rfl
            simpa using hstop
          subst hlast
          obtain ⟨hmore, hname⟩ := quoted_iff.mp ⟨rfl, hdrop⟩
          have hquoted := Bracket.quoted (isQuote_iff.mp hq) hname rest
          rwa [← hmore] at hquoted
      · dsimp only at h
        split at h
        · rename_i n hread
          obtain ⟨hdrop, rfl⟩ := closeBracket_eq_ok_iff.mp h
          obtain ⟨hmore, hchars, -⟩ := Text.span_eq_iff.mp ⟨rfl, hdrop⟩
          have hnumber := Bracket.index (index_iff.mpr ⟨hchars, hread⟩) rest
          rwa [← hmore] at hnumber
        · cases h
  · intro h
    cases h with
    | star => rfl
    | quoted hq hname =>
      rw [readBracket_quoted (isQuote_iff.mpr hq) _ _ hname, closeBracket_eq_ok_iff]
      exact ⟨rfl, rfl⟩
    | index h =>
      rw [readBracket_number h (by simp [isIndexChar_iff, ← Bool.not_eq_true]),
        closeBracket_eq_ok_iff]
      exact ⟨rfl, rfl⟩

/-! ## Whole paths -/

theorem readRest_deepBracket (cs : List Char) :
    readRest ('.' :: '.' :: '[' :: cs) =
      readBracket cs >>= fun p => (readRest p.2).map (.descend p.1 :: ·) := by
  rw [readRest]
  cases readBracket cs <;> rfl

theorem readRest_deepPlain {cs : List Char} (h : cs.head? ≠ some '[') :
    readRest ('.' :: '.' :: cs) =
      readName cs >>= fun p => (readRest p.2).map (.descend p.1 :: ·) := by
  rw [readRest]
  · cases readName cs <;> rfl
  · rintro rest rfl
    exact h rfl

theorem readRest_plain {cs : List Char} (h : cs.head? ≠ some '.') :
    readRest ('.' :: cs) = readName cs >>= fun p => (readRest p.2).map (p.1 :: ·) := by
  rw [readRest]
  · cases readName cs <;> rfl
  · rintro rest rfl
    exact h rfl
  · rintro rest rfl
    exact h rfl

theorem readRest_bracket (cs : List Char) :
    readRest ('[' :: cs) = readBracket cs >>= fun p => (readRest p.2).map (p.1 :: ·) := by
  rw [readRest]
  cases readBracket cs <;> rfl

theorem Plain.eq_cons {cs rest : List Char} {s : Segment} (h : Plain cs s rest) :
    ∃ c more, cs = c :: more ∧ (c = '*' ∨ NameChar c) := by
  cases h with
  | star => exact ⟨_, _, rfl, Or.inl rfl⟩
  | name h =>
    obtain ⟨c, more, rfl, hc⟩ := h.exists_head
    exact ⟨_, _, rfl, Or.inr hc⟩

/-- A star or a plain name starts with neither a dot nor a bracket. -/
theorem Plain.head_ne {cs rest : List Char} {s : Segment} (h : Plain cs s rest) {c : Char}
    (hc : c = '.' ∨ c = '[') : cs.head? ≠ some c := by
  obtain ⟨d, more, rfl, hd⟩ := h.eq_cons
  rintro ⟨⟩
  rcases hc with rfl | rfl <;> simp [NameChar] at hd

theorem Bracket.eq_cons {cs rest : List Char} {s : Segment} (h : Bracket cs s rest) :
    ∃ more, cs = '[' :: more := by
  cases h <;> exact ⟨_, rfl⟩

theorem tail_of_readRest {cs : List Char} {ss : List Segment} (h : readRest cs = .ok ss) :
    Tail cs ss := by
  fun_induction readRest cs generalizing ss
  -- Where a segment was read, the rest was read too; the other cases are errors.
  case case1 => cases h; exact .nil
  case case3 hread ih =>
    obtain ⟨ts, hts, rfl⟩ := map_eq_ok h
    exact .deepBracket (readBracket_eq_ok_iff.mp hread) (ih hts)
  case case5 hread ih =>
    obtain ⟨ts, hts, rfl⟩ := map_eq_ok h
    exact .deepPlain (readName_eq_ok_iff.mp hread) (ih hts)
  case case7 hread ih =>
    obtain ⟨ts, hts, rfl⟩ := map_eq_ok h
    exact .plain (readName_eq_ok_iff.mp hread) (ih hts)
  case case9 hread ih =>
    obtain ⟨ts, hts, rfl⟩ := map_eq_ok h
    exact .bracket (readBracket_eq_ok_iff.mp hread) (ih hts)
  all_goals cases h

theorem bind_readRest {x : Step} {s : Segment} {rest : List Char} {ss : List Segment}
    (f : Segment → Segment) (hx : x = .ok (s, rest)) (hrest : readRest rest = .ok ss) :
    (x >>= fun p => (readRest p.2).map (f p.1 :: ·)) = .ok (f s :: ss) := by
  rw [hx]
  change (readRest rest).map (f s :: ·) = _
  rw [hrest]
  rfl

theorem Tail.readRest_eq {cs : List Char} {ss : List Segment} (h : Tail cs ss) :
    readRest cs = .ok ss := by
  induction h with
  | nil => rw [readRest]
  | plain h _ ih =>
    rw [readRest_plain (h.head_ne (Or.inl rfl))]
    exact bind_readRest id (readName_eq_ok_iff.mpr h) ih
  | bracket h _ ih =>
    obtain ⟨more, rfl⟩ := h.eq_cons
    rw [readRest_bracket]
    exact bind_readRest id (readBracket_eq_ok_iff.mpr h) ih
  | deepPlain h _ ih =>
    rw [readRest_deepPlain (h.head_ne (Or.inr rfl))]
    exact bind_readRest .descend (readName_eq_ok_iff.mpr h) ih
  | deepBracket h _ ih =>
    obtain ⟨more, rfl⟩ := h.eq_cons
    rw [readRest_deepBracket]
    exact bind_readRest .descend (readBracket_eq_ok_iff.mpr h) ih

theorem readRest_eq_ok_iff {cs : List Char} {ss : List Segment} :
    readRest cs = .ok ss ↔ Tail cs ss :=
  ⟨tail_of_readRest, Tail.readRest_eq⟩

theorem Tail.head {cs : List Char} {ss : List Segment} (h : Tail cs ss) :
    ∀ c ∈ cs.head?, c = '.' ∨ c = '[' := by
  cases h with
  | nil => simp
  | plain => simp
  | bracket h =>
    obtain ⟨more, rfl⟩ := h.eq_cons
    simp
  | deepPlain => simp
  | deepBracket => simp

theorem readAll_plain {c : Char} {cs : List Char} (hc : c = '*' ∨ NameChar c) (hroot : c ≠ '$') :
    readAll (c :: cs) = readName (c :: cs) >>= fun p => (readRest p.2).map (p.1 :: ·) := by
  have hplain : (isNameChar c || c == '*') = true := by
    rw [Bool.or_eq_true, isNameChar_iff, beq_iff_eq]
    exact hc.symm
  unfold readAll
  split
  · rename_i heq
    cases heq
    exact absurd rfl hroot
  · rename_i heq
    cases heq
    rw [if_pos hplain]
    cases readName (c :: cs) <;> rfl
  · rename_i heq
    cases heq

theorem readAll_bare {cs : List Char} (h : ∀ c ∈ cs.head?, c = '.' ∨ c = '[') :
    readAll cs = readRest cs := by
  cases cs with
  | nil => simp [readAll, readRest]
  | cons c cs => rcases h c rfl with rfl | rfl <;> simp [readAll, isNameChar]

theorem readAll_eq_ok_iff {cs : List Char} {ss : List Segment} :
    readAll cs = .ok ss ↔ Spells cs ss := by
  constructor
  · intro h
    unfold readAll at h
    split at h
    · exact .root (readRest_eq_ok_iff.mp h)
    · rename_i c rest hroot
      split at h
      · split at h
        · cases h
        · rename_i s after hread
          obtain ⟨ts, hts, rfl⟩ := map_eq_ok h
          refine .plain (readName_eq_ok_iff.mp hread) ?_ (readRest_eq_ok_iff.mp hts)
          simpa using hroot
      · exact .bare (readRest_eq_ok_iff.mp h)
    · cases h
      exact .bare .nil
  · intro h
    cases h with
    | root t => exact readRest_eq_ok_iff.mpr t
    | plain h hroot t =>
      obtain ⟨c, more, rfl, hc⟩ := h.eq_cons
      rw [readAll_plain hc (by rintro rfl; exact hroot rfl)]
      exact bind_readRest id (readName_eq_ok_iff.mpr h) t.readRest_eq
    | bare t => rw [readAll_bare t.head, t.readRest_eq]

/-! ## The reader decides the grammar -/

theorem derives_iff {text : String} {segments : List Segment} :
    Derives text segments ↔ readAll (Text.trimChars text.toList) = .ok segments := by
  rw [readAll_eq_ok_iff]
  constructor
  · rintro ⟨cs, htrim, h⟩
    rwa [Text.trimChars_eq_iff.mpr htrim]
  · exact fun h => ⟨_, Text.trims_trimChars _, h⟩

theorem compile_eq_ok_iff {text : String} {segments : List Segment} :
    compile text = .ok ⟨segments⟩ ↔ Derives text segments := by
  rw [derives_iff]
  unfold compile
  dsimp only
  split
  · rename_i ss hread
    rw [hread, Except.ok.injEq, Except.ok.injEq, Path.mk.injEq]
  · rename_i hread
    rw [hread]
    exact ⟨nofun, nofun⟩

theorem compile_eq_error {text : String} {f : Fault} (h : compile text = .error f) :
    ∃ (place : Nat) (reason : Reason),
      f = .malformed ("path '" ++ text ++ "' @" ++ toString place) reason := by
  unfold compile at h
  dsimp only at h
  split at h
  · cases h
  · cases h
    exact ⟨_, _, rfl⟩

/-- A text is read as the segments it derives. It derives one list of segments, or none and is
refused as malformed. -/
theorem compile_decides (text : String) :
    (∀ segments, compile text = .ok ⟨segments⟩ ↔ Derives text segments) ∧
      ((∃! segments, Derives text segments) ∨
        (∀ segments, ¬Derives text segments) ∧
          ∃ (place : Nat) (reason : Reason), compile text =
            .error (.malformed ("path '" ++ text ++ "' @" ++ toString place) reason)) := by
  refine ⟨fun segments => compile_eq_ok_iff, ?_⟩
  cases h : compile text with
  | ok p =>
    refine Or.inl ⟨p.segments, compile_eq_ok_iff.mp h, fun segments hother => ?_⟩
    have hsame := compile_eq_ok_iff.mpr hother
    rw [h] at hsame
    cases hsame
    rfl
  | error f =>
    obtain ⟨place, reason, rfl⟩ := compile_eq_error h
    refine Or.inr ⟨fun segments hsome => ?_, place, reason, rfl⟩
    have hread := compile_eq_ok_iff.mpr hsome
    rw [h] at hread
    cases hread

/-! ## Texts of paths -/

structure PlainName where
  text : String
  nonempty : text ≠ ""
  chars : ∀ c ∈ text.toList, NameChar c

def PlainName.of (text : String) (nonempty : text ≠ "")
    (h : text.toList.all isNameChar = true) : PlainName where
  text := text
  nonempty := nonempty
  chars := fun c hc => isNameChar_iff.mp (List.all_eq_true.mp h c hc)

theorem PlainName.name (name : PlainName) {rest : List Char}
    (h : ∀ c ∈ rest.head?, c = '.' ∨ c = '[') : Name name.text.toList rest where
  nonempty := by simpa using name.nonempty
  chars := name.chars
  longest := by
    intro c hc
    rcases h c hc with rfl | rfl <;> simp [NameChar]

theorem index_toString {n : Int} (hlow : -2 ^ 63 ≤ n) (hhigh : n < 2 ^ 63) :
    Index (toString n).toList n := by
  cases n with
  | ofNat m =>
    have h := Index.positive (Decimal.digits_toDigits m)
    rw [Nat.ofDigitChars_ten_toDigits] at h
    rw [Int.ofNat_eq_natCast] at hhigh ⊢
    change Index m.repr.toList m
    rw [Nat.toList_repr]
    exact h (by omega)
  | negSucc m =>
    have h := Index.negative (Decimal.digits_toDigits (m + 1))
    rw [Nat.ofDigitChars_ten_toDigits] at h
    change Index ("-" ++ (m + 1).repr).toList (Int.negSucc m)
    rw [String.toList_append, Nat.toList_repr, Int.negSucc_eq]
    exact h (by omega)

theorem Index.isBlank_eq_false {cs : List Char} {n : Int} (h : Index cs n) :
    ∀ c ∈ cs, Text.isBlank c = false := by
  intro c hc
  rcases isIndexChar_iff.mp ((index_iff.mp h).1 c hc) with rfl | hdigit
  · rfl
  · exact Text.isBlank_of_isDigit hdigit

theorem compile_of_spells {text : String} {segments : List Segment}
    (hblank : ∀ c ∈ text.toList, Text.isBlank c = false) (h : Spells text.toList segments) :
    compile text = .ok ⟨segments⟩ :=
  compile_eq_ok_iff.mpr ⟨_, Text.trims_self hblank, h⟩

end Verdict.Path
