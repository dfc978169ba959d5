import Mathlib.Data.List.Nodup
import Verdict.Locale.Number

/-!
# Telling locales apart

One negative number with groups and a fraction shows every sign of a locale, so the text of that
number tells the locales apart.
-/

namespace Verdict.Locale

def sample : Float := -1234567.5

def sampleText (l : Locale) : String :=
  l.writeNumber sample 0 3

theorem nodup_sampleText : ((table.map (·.1)).map sampleText).Nodup := by
  decide

theorem ofName?_mem {name : String} {l : Locale} (h : ofName? name = some l) :
    l ∈ table.map (·.1) := by
  rw [ofName?, Option.map_eq_some_iff] at h
  obtain ⟨row, hrow, rfl⟩ := h
  exact List.mem_map_of_mem (List.mem_of_find?_eq_some hrow)

theorem resolve_mem (name : String) : resolve name ∈ table.map (·.1) := by
  have hchoice : ∀ o p : Option Locale, (∀ l, o = some l → l ∈ table.map (·.1)) →
      (∀ l, p = some l → l ∈ table.map (·.1)) → (o <|> p).getD english ∈ table.map (·.1) := by
    intro o p ho hp
    cases o with
    | some l => exact ho l rfl
    | none =>
      cases p with
      | some l => exact hp l rfl
      | none => exact List.mem_cons_self
  exact hchoice _ _ (fun _ => ofName?_mem) (fun _ => ofName?_mem)

/-- Names whose locales write the sample number alike name one locale. -/
theorem resolve_eq_of_sampleText {x y : String}
    (h : (resolve x).sampleText = (resolve y).sampleText) : resolve x = resolve y :=
  List.inj_on_of_nodup_map nodup_sampleText (resolve_mem x) (resolve_mem y) h

end Verdict.Locale
