import Mathlib
import Verdict.Calendar.Text

/-!
# Formats and their notation

A format is read from left to right, and the longest token at each place becomes a directive.  In
the notation with percent signs a directive is such a sign and a letter, a percent sign of the
format is written twice, and every other character stands for itself.  So no format reaches another
directive, and a text is read by just the directives that the notation spells.
-/

namespace Verdict.Calendar

/-! ## The rule -/

def tokens : List (List Char × Char) :=
  [(['y', 'y', 'y', 'y'], 'Y'), (['y', 'y'], 'y'), (['L', 'L'], 'm'), (['M', 'M'], 'm'),
    (['L'], 'm'), (['M'], 'm'), (['d', 'd'], 'd'), (['d'], 'd'), (['H', 'H'], 'H'),
    (['h', 'h'], 'I'), (['m', 'm'], 'M'), (['s', 's'], 'S'), (['a'], 'p')]

/-- What a format is in the notation with percent signs. -/
inductive Translates : List Char → List Char → Prop where
  | nil : Translates [] []
  /-- The longest token becomes its directive. -/
  | token {t cs out : List Char} {letter : Char} (known : (t, letter) ∈ tokens)
      (longest : ∀ u ∈ tokens.map (·.1), u <+: t ++ cs → u.length ≤ t.length)
      (rest : Translates cs out) : Translates (t ++ cs) ('%' :: letter :: out)
  | percent {cs out : List Char} (rest : Translates cs out) :
      Translates ('%' :: cs) ('%' :: '%' :: out)
  /-- What begins no token stays. -/
  | other {c : Char} {cs out : List Char} (unknown : ∀ u ∈ tokens.map (·.1), ¬u <+: c :: cs)
      (ordinary : c ≠ '%') (rest : Translates cs out) : Translates (c :: cs) (c :: out)

namespace Directive

/-! ## Reading the notation -/

/-- The directive of a letter behind a percent sign; there are others, which formats do not have. -/
def ofLetter : Char → Option Directive
  | 'Y' => some year
  | 'y' => some yearOfCentury
  | 'm' => some month
  | 'd' => some day
  | 'H' => some hour
  | 'I' => some hourOfHalf
  | 'M' => some minute
  | 'S' => some second
  | 'p' => some half
  | '%' => some (literal '%')
  | _ => none

/-- The directives that the notation spells, if it spells no others. -/
def ofNotation : List Char → Option (List Directive)
  | [] => some []
  | ['%'] => none
  | '%' :: letter :: cs => do
    let d ← ofLetter letter
    return d :: (← ofNotation cs)
  | c :: cs => (ofNotation cs).map (literal c :: ·)

/-- A directive in the notation is a percent sign with its letter, or a character of its own. -/
theorem text_cases (d : Directive) :
    (∃ letter, d.text.toList = ['%', letter] ∧ ofLetter letter = some d) ∨
      ∃ c, c ≠ '%' ∧ d = literal c ∧ d.text.toList = [c] := by
  cases d with
  | literal c =>
    by_cases hc : c = '%'
    · subst hc
      exact .inl ⟨'%', rfl, rfl⟩
    · refine .inr ⟨c, hc, rfl, ?_⟩
      rw [text, if_neg (by simpa using hc), String.toList_singleton]
  | year => exact .inl ⟨'Y', rfl, rfl⟩
  | yearOfCentury => exact .inl ⟨'y', rfl, rfl⟩
  | month => exact .inl ⟨'m', rfl, rfl⟩
  | day => exact .inl ⟨'d', rfl, rfl⟩
  | hour => exact .inl ⟨'H', rfl, rfl⟩
  | hourOfHalf => exact .inl ⟨'I', rfl, rfl⟩
  | minute => exact .inl ⟨'M', rfl, rfl⟩
  | second => exact .inl ⟨'S', rfl, rfl⟩
  | half => exact .inl ⟨'p', rfl, rfl⟩

theorem ofNotation_flatMap (ds : List Directive) :
    ofNotation (ds.flatMap fun d => d.text.toList) = some ds := by
  induction ds with
  | nil => rfl
  | cons d ds ih =>
    rw [List.flatMap_cons]
    rcases d.text_cases with ⟨letter, htext, hletter⟩ | ⟨c, hc, rfl, htext⟩
    · rw [htext, List.cons_append, List.singleton_append, ofNotation, hletter, ih]
      rfl
    · rw [htext, List.singleton_append, ofNotation, ih]
      · rfl
      · exact fun h _ => hc h
      · exact fun _ _ h _ => hc h

end Directive

open Directive

theorem toList_spellFormat (format : String) :
    (spellFormat format).toList =
      (ofFormat format.toList).flatMap fun d => d.text.toList := by
  rw [spellFormat, String.toList_join, List.flatMap_map]

/-! ## The rule decides -/

theorem Translates.last {cs out : List Char} (h : Translates cs out) :
    (cs = [] ∧ out = []) ∨
    (∃ t rest letter out', (t, letter) ∈ tokens ∧
      (∀ u ∈ tokens.map (·.1), u <+: cs → u.length ≤ t.length) ∧ Translates rest out' ∧
      cs = t ++ rest ∧ out = '%' :: letter :: out') ∨
    (∃ rest out', Translates rest out' ∧ cs = '%' :: rest ∧ out = '%' :: '%' :: out') ∨
    ∃ c rest out', (∀ u ∈ tokens.map (·.1), ¬u <+: cs) ∧ c ≠ '%' ∧ Translates rest out' ∧
      cs = c :: rest ∧ out = c :: out' := by
  cases h with
  | nil => exact .inl ⟨rfl, rfl⟩
  | token known longest rest => exact .inr (.inl ⟨_, _, _, _, known, longest, rest, rfl, rfl⟩)
  | percent rest => exact .inr (.inr (.inl ⟨_, _, rest, rfl, rfl⟩))
  | other unknown ordinary rest =>
    exact .inr (.inr (.inr ⟨_, _, _, unknown, ordinary, rest, rfl, rfl⟩))

theorem tokens_functional : ∀ p ∈ tokens, ∀ q ∈ tokens, p.1 = q.1 → p.2 = q.2 := by decide

/-- A token is not empty and has no percent sign in front. -/
theorem tokens_front : ∀ p ∈ tokens, ∃ c t, p.1 = c :: t ∧ c ≠ '%' := by
  simp [tokens]

/-- The rule gives one notation only. -/
theorem Translates.unique {cs out₁ out₂ : List Char} (h₁ : Translates cs out₁)
    (h₂ : Translates cs out₂) : out₁ = out₂ := by
  induction h₁ generalizing out₂ with
  | nil =>
    obtain ⟨-, rfl⟩ | ⟨t, rest, letter, out, known, -, -, hcs, -⟩ | ⟨_, _, _, hcs, -⟩ |
      ⟨_, _, _, _, _, _, hcs, -⟩ := h₂.last
    · rfl
    · obtain ⟨c, t', ht, -⟩ := tokens_front _ known
      simp_all
    · cases hcs
    · cases hcs
  | @token t cs out letter known longest rest ih =>
    obtain ⟨c, t', ht, hc⟩ := tokens_front _ known
    obtain ⟨hcs, -⟩ | ⟨u, rest', letter', out', known', longest', translated, hcs, rfl⟩ |
      ⟨rest', out', _, hcs, -⟩ | ⟨_, _, _, unknown, _⟩ := h₂.last
    · simp_all
    · have hlength : t.length = u.length :=
        le_antisymm (longest' t (List.mem_map_of_mem known) ⟨cs, rfl⟩)
          (longest u (List.mem_map_of_mem known') ⟨rest', hcs.symm⟩)
      obtain ⟨rfl, rfl⟩ := List.append_inj hcs hlength
      obtain rfl : letter = letter' := tokens_functional _ known _ known' rfl
      rw [ih translated]
    · simp_all
    · exact absurd ⟨cs, rfl⟩ (unknown t (List.mem_map_of_mem known))
  | @percent cs out rest ih =>
    obtain ⟨hcs, -⟩ | ⟨u, rest', letter', out', known, -, -, hcs, -⟩ |
      ⟨rest', out', translated, hcs, rfl⟩ | ⟨c, _, _, -, ordinary, -, hcs, -⟩ := h₂.last
    · cases hcs
    · obtain ⟨c, t, rfl, hc⟩ := tokens_front _ known
      cases hcs
      exact absurd rfl hc
    · cases hcs
      rw [ih translated]
    · cases hcs
      exact absurd rfl ordinary
  | @other c cs out unknown ordinary rest ih =>
    obtain ⟨hcs, -⟩ | ⟨u, rest', letter', out', known, -, -, hcs, -⟩ |
      ⟨rest', out', translated, hcs, rfl⟩ | ⟨_, _, _, -, -, translated, hcs, rfl⟩ := h₂.last
    · cases hcs
    · exact absurd ⟨rest', hcs.symm⟩ (unknown u (List.mem_map_of_mem known))
    · cases hcs
      exact absurd rfl ordinary
    · cases hcs
      rw [ih translated]

/-- A token's directive, in front of what the rule gives the rest. -/
theorem Translates.directive {t cs : List Char} {letter : Char} {d : Directive}
    {ds : List Directive} (known : (t, letter) ∈ tokens) (text : d.text.toList = ['%', letter])
    (rest : Translates cs (ds.flatMap fun d => d.text.toList))
    (longest : ∀ u ∈ tokens.map (·.1), u <+: t ++ cs → u.length ≤ t.length) :
    Translates (t ++ cs) ((d :: ds).flatMap fun d => d.text.toList) := by
  rw [List.flatMap_cons, text]
  exact .token known longest rest

theorem translates_ofFormat (cs : List Char) :
    Translates cs ((ofFormat cs).flatMap fun d => d.text.toList) := by
  fun_induction ofFormat cs with
  | case1 => exact .nil
  | case2 cs ih =>
    exact .directive (show (['y', 'y', 'y', 'y'], 'Y') ∈ tokens by decide) rfl ih (by simp [tokens])
  | case3 cs next ih =>
    refine .directive (show (['y', 'y'], 'y') ∈ tokens by decide) rfl ih ?_
    have : ¬['y', 'y'] <+: cs := fun ⟨rest, h⟩ => next rest h.symm
    simp [tokens, this]
  | case4 cs ih =>
    exact .directive (show (['L', 'L'], 'm') ∈ tokens by decide) rfl ih (by simp [tokens])
  | case5 cs ih =>
    exact .directive (show (['M', 'M'], 'm') ∈ tokens by decide) rfl ih (by simp [tokens])
  | case6 cs next ih =>
    refine .directive (show (['L'], 'm') ∈ tokens by decide) rfl ih ?_
    have : ¬['L'] <+: cs := fun ⟨rest, h⟩ => next rest h.symm
    simp [tokens, this]
  | case7 cs next ih =>
    refine .directive (show (['M'], 'm') ∈ tokens by decide) rfl ih ?_
    have : ¬['M'] <+: cs := fun ⟨rest, h⟩ => next rest h.symm
    simp [tokens, this]
  | case8 cs ih =>
    exact .directive (show (['d', 'd'], 'd') ∈ tokens by decide) rfl ih (by simp [tokens])
  | case9 cs next ih =>
    refine .directive (show (['d'], 'd') ∈ tokens by decide) rfl ih ?_
    have : ¬['d'] <+: cs := fun ⟨rest, h⟩ => next rest h.symm
    simp [tokens, this]
  | case10 cs ih =>
    exact .directive (show (['H', 'H'], 'H') ∈ tokens by decide) rfl ih (by simp [tokens])
  | case11 cs ih =>
    exact .directive (show (['h', 'h'], 'I') ∈ tokens by decide) rfl ih (by simp [tokens])
  | case12 cs ih =>
    exact .directive (show (['m', 'm'], 'M') ∈ tokens by decide) rfl ih (by simp [tokens])
  | case13 cs ih =>
    exact .directive (show (['s', 's'], 'S') ∈ tokens by decide) rfl ih (by simp [tokens])
  | case14 cs ih =>
    exact .directive (show (['a'], 'p') ∈ tokens by decide) rfl ih (by simp [tokens])
  | case15 c cs =>
    rename_i ih
    by_cases hc : c = '%'
    · subst hc
      exact .percent ih
    · have unknown : ∀ u ∈ tokens.map (·.1), ¬u <+: c :: cs := by
        simp only [tokens, List.map_cons, List.map_nil, List.forall_mem_cons]
        refine ⟨?_, ?_, ?_, ?_, ?_, ?_, ?_, ?_, ?_, ?_, ?_, ?_, ?_, by simp⟩ <;>
          (rintro ⟨rest, h⟩; cases h; simp_all)
      rw [List.flatMap_cons, text, if_neg (by simpa using hc), String.toList_singleton]
      exact .other unknown hc ih

/-- Every format has exactly the notation that the rule gives it: directives of ten kinds and
other characters, in the order of its longest tokens.  The notation spells the directives that a
text is read by, and no others. -/
theorem format_translated (format : String) :
    (∀ out, Translates format.toList out ↔ out = (spellFormat format).toList) ∧
      ∃ ds, ofNotation (spellFormat format).toList = some ds ∧
        ∀ text, readWith text format =
          (readAs true ds text.toList <|> readAs false ds text.toList) := by
  rw [toList_spellFormat]
  refine ⟨fun out => ⟨fun h => h.unique (translates_ofFormat _), ?_⟩, _, ofNotation_flatMap _,
    fun text => rfl⟩
  rintro rfl
  exact translates_ofFormat _

end Verdict.Calendar
