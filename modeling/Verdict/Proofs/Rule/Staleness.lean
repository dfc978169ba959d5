import Verdict.Proofs.Locale
import Verdict.Proofs.Rule.Editing

/-!
# Kept checks that are out of date

The digest of a node says nothing of the scopes of the rules below.  When a rule below gives way to
an equal one in another scope, the check kept in the node counts on, although it was made for the
locale of the first scope.  So kept checks are sure only if all scopes that meet in a tree write
numbers alike.
-/

namespace Verdict.Rule

def amount : Operand :=
  (Operand.literal (.num (.float Locale.sample (by decide +kernel)))).withStep
    ⟨.text none none none, false⟩

def quote (x : ScopeId) : Rule :=
  of x (.compare .values (some amount) (some (.literal (.str "-1,234,567.5")))) .equal

def quotes (x y : ScopeId) : Rule :=
  of x (.compound [quote y]) .all

theorem interpret_quotes (tongue : ScopeId → String) (now : Instant) (record : Json)
    (env : Environment) (x y : ScopeId) :
    ∃ trace, (quotes x y).interpret tongue now record env = .ok trace ∧
      trace.results.map (·.map (·.left)) =
        some [some (.str (Locale.resolve (tongue y)).sampleText)] :=
  ⟨_, rfl, rfl⟩

theorem memo_quotes {x y : ScopeId} : ∀ n ∈ (quotes x y).nodes, n.memo = none := by
  intro n hn
  rw [show (quotes x y).nodes = [quotes x y, quote y] from rfl] at hn
  rcases List.mem_cons.mp hn with rfl | hn
  · rfl
  · rw [List.mem_singleton.mp hn]
    rfl

theorem apart_texts_quotes (x y : ScopeId) : Digest.Apart (quotes x y).texts := by
  -- the texts of the node and of the rule below it are the same in all scopes
  have htexts : (quotes x y).texts =
      [(quotes ⟨0⟩ ⟨0⟩).canonical.text, (quote ⟨0⟩).canonical.text] := rfl
  have hne : (quotes ⟨0⟩ ⟨0⟩).digest ≠ (quote ⟨0⟩).digest := by
    decide +kernel
  rw [digest_eq, digest_eq] at hne
  rw [htexts]
  intro t ht u hu h
  simp only [List.mem_cons, List.not_mem_nil, or_false] at ht hu
  rcases ht with rfl | rfl <;> rcases hu with rfl | rfl
  · rfl
  · exact absurd h hne
  · exact absurd h.symm hne
  · rfl

/-! ## A rule that gave way to an equal one -/

def compiled (s : Session) (x : ScopeId) : Rule :=
  ((quotes x x).compile false s.emptied).1.2

def swapped (s : Session) (x y : ScopeId) : Rule :=
  { compiled s x with test := .compound [quote y] }

theorem eq_compound_of_bareBelow {test : Test Rule} {r : Rule}
    (h : bareBelow id test = .compound [r]) : ∃ child, test = .compound [child] := by
  cases test with
  | compound cs =>
    have hcs : bareAll id cs = [r] := Test.compound.inj h
    rw [bareAll_eq_map, List.map_eq_singleton_iff] at hcs
    obtain ⟨child, rfl, -⟩ := hcs
    exact ⟨child, rfl⟩
  | _ => cases h

theorem compiled_eq (s : Session) (x : ScopeId) :
    ∃ child description check, Says s.tongue check (quotes x x) ∧
      compiled s x = ⟨.compound [child], .all, [], [], description, x,
        some ⟨(quotes x x).digest, check⟩⟩ := by
  have hkeep : Keeps (Faithful s.emptied.tongue) (quotes x x).nodes := keeps_cold memo_quotes
  obtain ⟨-, hres, hbare, -⟩ := compile_ends false (quotes x x) (fun n _ => trusts_faithful n) hkeep
    s.emptied s.sound_emptied rfl
  have haudit : (quotes x x).audit = .ok () := rfl
  cases hcompile : ((quotes x x).compile false s.emptied).1.1 with
  | error f =>
    rw [hcompile, Work.Settles, haudit] at hres
    cases hres
  | ok c =>
    rw [hcompile, s.tongue_emptied] at hres
    have hmemo := memo_compile hcompile
    rw [← compiled] at hmemo hbare
    rcases hcompiled : compiled s x with ⟨test, op, dependencies, locals, description, scope, memo⟩
    rw [hcompiled] at hmemo hbare
    change (⟨bareBelow id test, op, bareAll id dependencies, locals, none, scope, none⟩ : Rule) =
      ⟨.compound [quote x], .all, [], [], none, x, none⟩ at hbare
    rw [Rule.mk.injEq, bareAll_eq_map, List.map_eq_nil_iff] at hbare
    obtain ⟨htest, rfl, rfl, rfl, -, rfl, -⟩ := hbare
    obtain ⟨child, rfl⟩ := eq_compound_of_bareBelow htest
    exact ⟨child, description, c, hres.2, congrArg _ hmemo⟩

theorem swapped_eq (s : Session) (x y : ScopeId) :
    ∃ description check, Says s.tongue check (quotes x x) ∧
      swapped s x y = ⟨.compound [quote y], .all, [], [], description, x,
        some ⟨(quotes x x).digest, check⟩⟩ := by
  obtain ⟨child, description, check, hsays, hcompiled⟩ := compiled_eq s x
  exact ⟨description, check, hsays, by rw [swapped, hcompiled]⟩

section AtHand

variable {ι : Type} {family : ScopeId → ι} {x y : ScopeId}

theorem akin_quotes (h : family x = family y) {description : Option String} {memo : Option Memo} :
    Akin family ⟨.compound [quote y], .all, [], [], description, x, memo⟩ := by
  intro n hn
  rcases List.mem_cons.mp hn with rfl | hn
  · rfl
  · rw [List.mem_singleton.mp hn]
    exact h.symm

/-- Compiling the group, taking its rule away and adding the other one leads to the swapped
group. -/
theorem atHand_swapped (s : Session) (h : family x = family y) :
    AtHand s.tongue family (quotes x x).texts (swapped s x y) := by
  have hmade : AtHand s.tongue family (quotes x x).texts (quotes x x) :=
    .make memo_quotes (akin_quotes rfl)
  have hguest : AtHand s.tongue family (quotes x x).texts (quote y) :=
    .part (.make memo_quotes (akin_quotes rfl))
      (show (quotes y y).node? [.child 0] = some (quote y) from rfl)
  have hcompiled : AtHand s.tongue family (quotes x x).texts (compiled s x) :=
    .compile false hmade (show (quotes x x).node? [] = some (quotes x x) from rfl)
      (List.Subset.refl _) s.sound_emptied s.tongue_emptied
  obtain ⟨child, description, check, -, heq⟩ := compiled_eq s x
  have hswapped : swapped s x y = ⟨.compound [quote y], .all, [], [], description, x,
      some ⟨(quotes x x).digest, check⟩⟩ := by rw [swapped, heq]
  rw [heq] at hcompiled
  rw [hswapped]
  let group (cs : List Rule) : Rule :=
    ⟨.compound cs, .all, [], [], description, x, some ⟨(quotes x x).digest, check⟩⟩
  have hempty : AtHand s.tongue family (quotes x x).texts (group []) := by
    have hroot : (group [child]).node? [] = some (group [child]) := rfl
    refine .edit (.removeChild 0) hcompiled (fun _ hg => nomatch hg) hroot rfl fun n hn => ?_
    rw [List.mem_singleton.mp hn]
    rfl
  have hroot : (group []).node? [] = some (group []) := rfl
  refine .edit (.pushChild (quote y)) hempty (fun g hg => ?_) hroot rfl (akin_quotes h)
  obtain rfl : quote y = g := Option.some.inj hg
  exact hguest

end AtHand

/-- The check that the swapped group has kept is found again, for the locale of the wrong scope. -/
theorem sampleText_eq_of_current {s : Session} {x y : ScopeId}
    (h : (swapped s x y).Current s.tongue) :
    (Locale.resolve (s.tongue x)).sampleText = (Locale.resolve (s.tongue y)).sampleText := by
  obtain ⟨description, check, hsays, heq⟩ := swapped_eq s x y
  have hessence : (swapped s x y).essence = (quotes x x).essence := by
    rw [heq]
    rfl
  have hdigest : (swapped s x y).digest = (quotes x x).digest := digest_eq_of_bare hessence
  have hmemo : (swapped s x y).memo = some ⟨(swapped s x y).digest, check⟩ := by
    rw [hdigest, heq]
  have hkept := compile_kept hmemo s.emptied
  have halike := h (quotes x y) (by rw [heq]; rfl) memo_quotes s.emptied s.emptied s.sound_emptied
    s.sound_emptied s.tongue_emptied s.tongue_emptied false false
  have hcold : ∀ n ∈ (quotes x y).nodes, n.memo = none := memo_quotes
  have hfresh := compile_settles s.sound_emptied (keeps_cold hcold) false
  rw [hkept] at halike
  cases hcompile : ((quotes x y).compile false s.emptied).1.1 with
  | error f =>
    rw [hcompile] at halike
    cases halike
  | ok d =>
    rw [hcompile] at halike hfresh
    rw [s.tongue_emptied] at hfresh
    have hanswers := halike default default rfl .null [] s.emptied s.emptied s.sound_emptied
      s.sound_emptied
    obtain ⟨_, hstale, -⟩ := hsays default .null [] s.emptied s.sound_emptied
    obtain ⟨_, hnew, -⟩ := hfresh.2 default .null [] s.emptied s.sound_emptied
    obtain ⟨old, hold, hleft⟩ := interpret_quotes s.tongue default .null [] x x
    obtain ⟨new, hnew', hleft'⟩ := interpret_quotes s.tongue default .null [] x y
    rw [hstale, hnew, hold, hnew'] at hanswers
    obtain rfl : old = new := Except.ok.inj hanswers
    rw [hleft] at hleft'
    simpa using hleft'

theorem texts_swapped (s : Session) (x y : ScopeId) :
    (swapped s x y).texts = (quotes x x).texts := by
  obtain ⟨description, check, -, heq⟩ := swapped_eq s x y
  rw [heq]
  rfl

/-- Where no texts collide, no order of edits and compilations makes compiling come to a check that
is out of date exactly if all scopes that may meet in a tree write numbers alike. -/
theorem current_iff_same_signs (s : Session) {ι : Type} (family : ScopeId → ι) :
    (∀ known r, Digest.Apart known → AtHand s.tongue family known r → r.texts ⊆ known →
        r.Current s.tongue) ↔
      ∀ x y, family x = family y → Locale.resolve (s.tongue x) = Locale.resolve (s.tongue y) := by
  constructor
  · intro h x y hxy
    have hknown : (swapped s x y).texts ⊆ (quotes x x).texts := by
      rw [texts_swapped]
      exact List.Subset.refl _
    have hcurrent := h _ _ (apart_texts_quotes x x) (atHand_swapped s hxy) hknown
    exact Locale.resolve_eq_of_sampleText (sampleText_eq_of_current hcurrent)
  · intro hsigns known r hapart hr hknown
    exact hr.current hsigns hapart hknown

def german : Session :=
  ((({} : Session).openScope (.bounded none "de")).2.openScope (.bounded none "en-US")).2

/-- A German rule that gave way to an American one still counts. -/
theorem swapped_german_not_current :
    let r := swapped german ⟨0⟩ ⟨1⟩
    Digest.Apart r.texts ∧ AtHand german.tongue (fun _ => ()) r.texts r ∧
      ¬r.Current german.tongue := by
  have hsigns : (Locale.resolve "de").sampleText ≠ (Locale.resolve "en-US").sampleText := by
    decide +kernel
  have hgerman : german.tongue ⟨0⟩ = "de" := rfl
  have hamerican : german.tongue ⟨1⟩ = "en-US" := rfl
  simp only [texts_swapped]
  refine ⟨apart_texts_quotes ⟨0⟩ ⟨0⟩, atHand_swapped german rfl, fun h => hsigns ?_⟩
  rw [← hgerman, ← hamerican]
  exact sampleText_eq_of_current h

end Verdict.Rule
