import Verdict.CommandLine.Run
import Verdict.Proofs.Rule.Reading

/-!
# Which rules a command line takes

A rule in a file is bounded twice: its depth by the settings, and the nesting of its text by what a
reader of JSON allows.  Below a depth of 64 only the settings count; beyond it no rule is read,
whatever the settings allow.  What is read is the rule that was written if the numbers in it come
back.
-/

namespace Verdict.CommandLine

variable {w : World} {path : String} {r : Rule}

/-! ## Rules in files -/

namespace World

theorem readRule_of_readJson {v : Json} {d : Definition} {scope : ScopeId}
    (hjson : w.readJson path = .ok v) (hdefinition : Definition.ofJson v = some d)
    (hrule : Rule.ofDefinition scope d = .ok r) (limit : Nat) :
    w.readRule scope limit path =
      if r.depth ≤ limit then .ok r else .error (.tooDeep r.depth limit) := by
  simp only [readRule, hjson, bind, Except.bind, hdefinition, hrule, ← not_le, ite_not]

theorem readRule_simple (hr : r.Simple) (hfile : w.file path = some r.toJson.text)
    (scope : ScopeId) (limit : Nat) :
    w.readRule scope limit path =
      if r.toJson.nesting ≤ Document.maxNesting ∧ Json.HaveValues r.toJson.numbers then
        if r.depth ≤ limit then .ok (r.asRead.withScope scope)
        else .error (.tooDeep r.depth limit)
      else .error (.notJson path) := by
  have hread := Rule.read_text_toJson hr
  by_cases hfits : r.toJson.nesting ≤ Document.maxNesting ∧ Json.HaveValues r.toJson.numbers
  · rw [if_pos hfits] at hread ⊢
    have hjson : w.readJson path = .ok r.asRead.toJson := by
      simp only [readJson, hfile, hread]
    rw [readRule_of_readJson hjson (Rule.ofJson_toDefinition r.asRead)
      (Rule.ofDefinition_toDefinition scope r.asRead), Rule.depth_withScope, Rule.depth_asRead]
  · rw [if_neg hfits] at hread ⊢
    have hjson : w.readJson path = .error (.notJson path) := by
      simp only [readJson, hfile, hread]
    rw [readRule, hjson]
    rfl

end World

/-- What a limit of the depth makes of a request for a digest. -/
def digestUnlessDeep (r : Rule) (limit : Nat) : Outcome :=
  if r.depth ≤ limit then .printed (r.digest ++ "\n") else .failed (.tooDeep r.depth limit)

theorem run_hash {arguments : List String} (hrequest : Request.ofArguments arguments = .hash path)
    (hr : r.Simple) (hfile : w.file path = some r.toJson.text) :
    run w arguments =
      if r.toJson.nesting ≤ Document.maxNesting ∧ Json.HaveValues r.toJson.numbers then
        digestUnlessDeep r.asRead w.settings.maxDepth
      else .failed (.notJson path) := by
  have hhash : w.hash path =
      (w.readRule (Session.openScope {} w.settings.scope).1 w.settings.maxDepth path).map
        Rule.digest :=
    rfl
  rw [run, hrequest]
  dsimp only
  rw [hhash, World.readRule_simple hr hfile, digestUnlessDeep, Rule.depth_asRead]
  split
  · split
    · rw [← Rule.digest_withScope (Session.openScope {} w.settings.scope).1 r.asRead]
      rfl
    · rfl
  · rfl

/-! ## Chains of compounds -/

/-- A comparison with a literal below some compounds. -/
def chain (v : Json) : Nat → Rule
  | 0 => .of ⟨0⟩ (.compare .values (some (.path "a")) (some (.literal v))) .equal
  | n + 1 => .of ⟨0⟩ (.compound [chain v n]) .all

section Chain

variable {v : Json}

theorem simple_chain (hv : v.IsScalar) (n : Nat) : (chain v n).Simple := by
  induction n with
  | zero =>
    rw [Rule.Simple, Rule.nodes_eq]
    refine List.forall_mem_singleton.mpr ⟨?_, ?_, nofun, .nil⟩
    · rintro o ⟨⟩
      exact .path "a"
    · rintro o ⟨⟩
      exact .literal hv
  | succ n ih =>
    rw [Rule.Simple, Rule.nodes_eq, List.forall_mem_cons, List.forall_mem_append]
    refine ⟨⟨nofun, nofun, nofun, .nil⟩, ?_, nofun⟩
    change ∀ m ∈ (chain v n).nodes ++ [], m.HasSimpleSources
    rw [List.append_nil]
    exact ih

theorem depth_chain (v : Json) (n : Nat) : (chain v n).depth = n + 1 := by
  induction n with
  | zero => rfl
  | succ n ih =>
    change 1 + max (max (chain v n).depth 0) 0 = n + 1 + 1
    rw [ih]
    omega

theorem toJson_chain_zero (v : Json) :
    (chain v 0).toJson = .obj [("left", .obj [("path", .str "a")]), ("operator", .str "EQUAL"),
      ("right", .obj [("value", v)]), ("type", .str "PRIMITIVE")] :=
  Definition.toJson_eq _

theorem toJson_chain_succ (v : Json) (n : Nat) :
    (chain v (n + 1)).toJson = .obj [("conditions", .arr [(chain v n).toJson]),
      ("operator", .str "ALL"), ("type", .str "COMPOUND")] :=
  Definition.toJson_eq _

theorem nesting_chain (hv : v.IsScalar) (n : Nat) : (chain v n).toJson.nesting = 2 * n + 2 := by
  induction n with
  | zero =>
    rw [toJson_chain_zero]
    simp [Json.nesting, Json.memberNesting, hv.nesting_eq_zero]
  | succ n ih =>
    rw [toJson_chain_succ]
    simp [Json.nesting, Json.memberNesting, Json.itemNesting, ih]
    omega

theorem numbers_chain (v : Json) (n : Nat) : (chain v n).toJson.numbers = v.numbers := by
  induction n with
  | zero =>
    rw [toJson_chain_zero]
    simp [Json.numbers, Json.memberNumbers]
  | succ n ih =>
    rw [toJson_chain_succ]
    simp [Json.numbers, Json.memberNumbers, Json.itemNumbers, ih]

end Chain

def holding (path : String) (r : Rule) : World where
  file p := if p = path then some r.toJson.text else none
  vars := []
  now := default

theorem ofArguments_hash :
    Request.ofArguments ["hash", "--condition", "rule.json"] = .hash "rule.json" := by
  decide +kernel

/-! ## Both limits -/

/-- Below a depth of 64 the settings alone decide whether a rule is taken.  Deeper rules are no JSON
for the reader, whatever the settings allow; at 64 the nesting of the sources decides.  The digest
is that of the rule if its numbers come back. -/
theorem run_hash_bounded {arguments : List String}
    (hrequest : Request.ofArguments arguments = .hash path) (hr : r.Simple)
    (hfile : w.file path = some r.toJson.text) :
    (r.toJson.nesting ≤ Document.maxNesting → Json.ComeBack r.toJson.numbers →
        run w arguments = digestUnlessDeep r w.settings.maxDepth)
      ∧ (r.toJson.nesting ≤ Document.maxNesting → Json.HaveValues r.toJson.numbers →
        run w arguments = digestUnlessDeep r.asRead w.settings.maxDepth)
      ∧ (Document.maxNesting < r.toJson.nesting ∨ ¬Json.HaveValues r.toJson.numbers →
        run w arguments = .failed (.notJson path))
      ∧ (r.depth < 64 → r.toJson.nesting ≤ Document.maxNesting)
      ∧ (64 < r.depth → Document.maxNesting < r.toJson.nesting) := by
  have hrun := run_hash hrequest hr hfile
  obtain ⟨hlow, hhigh⟩ :
      2 * r.depth ≤ r.toJson.nesting + 1 ∧ r.toJson.nesting ≤ 2 * r.depth + 1 :=
    Rule.nesting_toDefinition r hr
  have hmax : Document.maxNesting = 127 := rfl
  refine ⟨fun hfits hback => ?_, fun hfits hvalues => ?_, fun hbeyond => ?_, fun hdepth => ?_,
    fun hdepth => ?_⟩
  · rw [hrun, if_pos ⟨hfits, hback.haveValues⟩, digestUnlessDeep, digestUnlessDeep,
      Rule.depth_asRead, Rule.digest_asRead hr hback]
  · rw [hrun, if_pos ⟨hfits, hvalues⟩]
  · rw [hrun, if_neg]
    rintro ⟨hfits, hvalues⟩
    exact hbeyond.elim (not_lt.mpr hfits) (absurd hvalues)
  · omega
  · omega

def half : Number :=
  .float 0.5 (by decide)

theorem reread_half : Document.reread half = some half :=
  Document.reread_float_of_short _
    (s := ⟨false, Decimal.digits 0, ['5'], none, Document.leads_digits 0,
      List.forall_mem_singleton.mpr rfl⟩)
    (by decide) (by decide) rfl (by decide) (by decide)

/-- The longest chain whose text is read. -/
theorem run_hash_longest_chain :
    Request.ofArguments ["hash", "--condition", "rule.json"] = .hash "rule.json"
      ∧ (chain (.num half) 62).Simple
      ∧ (holding "rule.json" (chain (.num half) 62)).file "rule.json" =
          some (chain (.num half) 62).toJson.text
      ∧ run (holding "rule.json" (chain (.num half) 62)) ["hash", "--condition", "rule.json"] =
          .printed ((chain (.num half) 62).digest ++ "\n") := by
  have hsimple := simple_chain (v := .num half) trivial 62
  have hbounded := run_hash_bounded (w := holding "rule.json" (chain (.num half) 62))
    ofArguments_hash hsimple rfl
  have hdepth : (chain (.num half) 62).depth ≤
      (holding "rule.json" (chain (.num half) 62)).settings.maxDepth := by
    rw [depth_chain]
    decide +kernel
  have hfits := hbounded.2.2.2.1 (by rw [depth_chain]; decide)
  have hback : Json.ComeBack (chain (.num half) 62).toJson.numbers := by
    rw [numbers_chain]
    exact List.forall_mem_singleton.mpr reread_half
  refine ⟨ofArguments_hash, hsimple, rfl, ?_⟩
  rw [hbounded.1 hfits hback, digestUnlessDeep, if_pos hdepth]

/-- A chain as deep as the standard settings allow is refused for its text. -/
theorem deepest_chain_refused :
    (chain (.ofInt 1) 63).Simple
      ∧ (chain (.ofInt 1) 63).depth ≤
          (holding "rule.json" (chain (.ofInt 1) 63)).settings.maxDepth
      ∧ run (holding "rule.json" (chain (.ofInt 1) 63)) ["hash", "--condition", "rule.json"] =
          .failed (.notJson "rule.json") := by
  have hsimple := simple_chain (v := .ofInt 1) trivial 63
  refine ⟨hsimple, ?_, ?_⟩
  · rw [depth_chain]
    decide +kernel
  · rw [run_hash ofArguments_hash hsimple rfl, nesting_chain (v := .ofInt 1) trivial, if_neg]
    exact fun h => absurd h.1 (by decide)

end Verdict.CommandLine
