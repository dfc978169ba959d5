import Verdict.Proofs.Json.Members
import Verdict.Proofs.Rule.Account

/-!
# Environments in a trace

Going down a trace, environments only grow: whatever a name is bound to above, it is bound to below,
and what comes in are variables of the rules in between.  A variable never takes the place of a
name that is bound already, so the caller has the last word everywhere.
-/

namespace Verdict

namespace Members

variable {α : Type} {name : String}

/-- What the top binds counts, and else what the base binds. -/
theorem value?_overlay (base top : Members α) :
    value? name (overlay base top) = (value? name top).or (value? name base) := by
  induction top with
  | nil => rfl
  | cons m top ih =>
    obtain ⟨key, v⟩ := m
    rw [overlay, List.foldr_cons, ← overlay, value?_put, value?_cons, ih]
    split <;> rfl

end Members

/-- The inner environment binds all that the outer one binds, to the same, and differs from it in
some names at most. -/
structure Environment.Grows (names : List String) (outer inner : Environment) : Prop where
  keeps : ∀ name v, outer.value? name = some v → inner.value? name = some v
  adds : ∀ name, name ∉ names → inner.value? name = outer.value? name

namespace Environment

variable {names names' : List String} {e f g : Environment}

theorem Grows.refl (names : List String) (e : Environment) : Grows names e e :=
  ⟨fun _ _ => id, fun _ _ => rfl⟩

theorem Grows.trans (hef : Grows names e f) (hfg : Grows names' f g) :
    Grows (names ++ names') e g where
  keeps name v h := hfg.keeps name v (hef.keeps name v h)
  adds name h := by
    rw [List.mem_append, not_or] at h
    rw [hfg.adds name h.2, hef.adds name h.1]

theorem grows_overlay {base : Environment} (hbase : ∀ name ∈ base.names, name ∈ names) :
    Grows names e (Members.overlay base e) where
  keeps name v h := by rw [Members.value?_overlay, h]; rfl
  adds name h := by
    have hnone : base.value? name = none :=
      Members.value?_eq_none_iff.mpr fun hmem => h (hbase name hmem)
    rw [Members.value?_overlay, hnone, Option.or_none]

end Environment

namespace Rule

/-! ## Rules and their traces -/

def elementGroup (r : Rule) : Rule :=
  of r.scope (.compound r.children) .all

/-- A trace stands directly in the trace of a rule, as that of a rule directly below. -/
inductive Under : Rule → Trace → Rule → Trace → Prop
  | dependency {r d : Rule} {t u : Trace} {traces : List Trace}
      (ht : t.dependencyTraces = some traces) (hu : (d, u) ∈ r.dependencies.zip traces) :
      Under r t d u
  | member {r c : Rule} {t u : Trace} {cs : List Rule} {traces : List Trace}
      (htest : r.test = .compound cs) (ht : t.results = some traces) (hu : (c, u) ∈ cs.zip traces) :
      Under r t c u
  | element {r : Rule} {t u : Trace} {left : Option Operand} {cs : List Rule} {traces : List Trace}
      (htest : r.test = .iterate left cs) (ht : t.results = some traces) (hu : u ∈ traces) :
      Under r t r.elementGroup u

/-- A trace stands at some depth in the trace of a rule.  The names are those of the variables on
the way down, from the first rule below to the last. -/
inductive Descends : Rule → Trace → List String → Rule → Trace → Prop
  | here {r : Rule} {t : Trace} : Descends r t [] r t
  | under {r a b : Rule} {t u v : Trace} {names : List String} (ha : Under r t a u)
      (hb : Descends a u names b v) : Descends r t (Members.names a.locals ++ names) b v

end Rule

/-- The traces that stand directly in a trace. -/
def Trace.parts (t : Trace) : List Trace :=
  t.results.getD [] ++ t.dependencyTraces.getD []

theorem Trace.mem_parts {t u : Trace} : u ∈ t.parts ↔
    (∃ traces, t.results = some traces ∧ u ∈ traces) ∨
      ∃ traces, t.dependencyTraces = some traces ∧ u ∈ traces := by
  rw [parts, List.mem_append]
  cases t.results <;> cases t.dependencyTraces <;> simp

namespace Rule

variable {tongue : ScopeId → String} {now : Instant} {record : Json} {env : Environment}

/-! ## One step down -/

theorem grows_of_extend {kind : Kind} {locale : String} {locals : Members Operand}
    {e : Environment} (h : extend kind locale now record env locals = .ok e) :
    env.Grows (Members.names locals) e := by
  rw [extend] at h
  split at h
  · cases h
    exact .refl _ _
  · obtain ⟨found, hfound, h⟩ := bind_eq_ok h
    cases h
    refine Environment.grows_overlay fun name hname => ?_
    -- gathering neither adds names nor loses them
    have hmem : name ∈ Members.names found := by
      by_contra hnot
      have hnone : Members.value? name found.reverse = none :=
        Members.value?_eq_none_iff.mpr fun hmem => hnot <| by
          rwa [Members.names, List.map_reverse, List.mem_reverse] at hmem
      rw [← Members.value?_gather] at hnone
      exact Members.value?_eq_none_iff.mp hnone hname
    obtain ⟨pair, hpair, rfl⟩ := List.mem_map.mp hmem
    obtain ⟨l, hl, hpair⟩ := exists_of_mapM hfound hpair
    obtain ⟨v, -, hpair⟩ := bind_eq_ok hpair
    cases hpair
    exact List.mem_map_of_mem hl

theorem interpretAll_eq_ok {rs : List Rule} : {ts : List Trace} →
    interpretAll tongue now rs record env = .ok ts →
      List.Forall₂ (fun r t => r.interpret tongue now record env = .ok t) rs ts := by
  induction rs with
  | nil =>
    intro ts h
    cases h
    exact .nil
  | cons r rest ih =>
    intro ts h
    obtain ⟨t, hr, h⟩ := bind_eq_ok h
    obtain ⟨more, hrest, h⟩ := bind_eq_ok h
    cases h
    exact .cons hr (ih hrest)

theorem exists_zip_of_forall₂ {R : Rule → Trace → Prop} {rs : List Rule} {ts : List Trace}
    (h : List.Forall₂ R rs ts) {u : Trace} (hu : u ∈ ts) : ∃ r, (r, u) ∈ rs.zip ts := by
  obtain ⟨i, hi, rfl⟩ := List.mem_iff_getElem.mp hu
  have hlength : rs.length = ts.length := h.length_eq
  refine ⟨rs[i], List.mem_iff_getElem.mpr ⟨i, ?_, ?_⟩⟩
  · rw [List.length_zip, hlength, Nat.min_self]
    exact hi
  · rw [List.getElem_zip]

/-- What a trace shows of the test of a rule in an environment, if the test was made. -/
structure ShowsTest (tongue : ScopeId → String) (now : Instant) (test : Test Rule)
    (record : Json) (e : Environment) (t : Trace) : Prop where
  environment : ∀ inner, t.environment = some inner → inner = e
  members : ∀ cs traces, test = .compound cs → t.results = some traces →
    interpretAll tongue now cs record e = .ok traces
  elements : ∀ left cs traces, test = .iterate left cs → t.results = some traces →
    ∀ u ∈ traces, ∃ target results, interpretAll tongue now cs target e = .ok results ∧
      u = { Trace.of .iterate .all e (results.all (·.result)) with results := some results }
  leaves : test.isGroup = false → t.results = none

section ShowsTest

variable {op : Operator} {scope : ScopeId} {test : Test Rule} {e : Environment} {t : Trace}

theorem showsTest_of_no_results (henv : ∀ inner, t.environment = some inner → inner = e)
    (hresults : t.results = none) : ShowsTest tongue now test record e t where
  environment := henv
  members _ _ _ h := nomatch hresults.symm.trans h
  elements _ _ _ _ h := nomatch hresults.symm.trans h
  leaves _ := hresults

theorem showsTest_of_interpretTest
    (h : interpretTest tongue now op scope test record e = .ok t) :
    ShowsTest tongue now test record e t := by
  cases test with
  | compare as left right =>
    obtain ⟨-, rfl⟩ | ⟨-, henv, a, b, -, -, h⟩ := interpretComparison_eq_ok h
    · exact showsTest_of_no_results (fun _ h => by cases h) rfl
    · refine showsTest_of_no_results (fun _ h => Option.some.inj (h.symm.trans henv)) ?_
      cases as with
      | values =>
        obtain ⟨result, -, rfl⟩ := h
        rfl
      | dates | times =>
        rw [h]
        cases op.isTemporalExtent
        · rfl
        · rw [if_pos rfl, Check.traceExtent]
          cases Check.instantOf a <;> rfl
  | presence left =>
    rw [interpretTest] at h
    split at h
    · cases h
      exact showsTest_of_no_results (fun _ h => by cases h) rfl
    · obtain ⟨v, -, h⟩ := bind_eq_ok h
      cases h
      exact showsTest_of_no_results (fun _ h => (Option.some.inj h).symm) rfl
  | compound cs =>
    rw [interpretTest] at h
    obtain ⟨traces, hall, h⟩ := bind_eq_ok h
    obtain ⟨result, -, h⟩ := bind_eq_ok h
    cases h
    refine ⟨fun _ h => (Option.some.inj h).symm, fun cs' traces' hcs ht => ?_,
      (fun _ _ _ h => by cases h), (fun h => by cases h)⟩
    cases hcs
    cases ht
    exact hall
  | iterate left cs =>
    rw [interpretTest] at h
    obtain ⟨v, -, h⟩ := bind_eq_ok h
    obtain ⟨elements, helements, h⟩ := bind_eq_ok h
    obtain ⟨group, hgroup, h⟩ := bind_eq_ok h
    obtain ⟨result, -, hgroup⟩ := bind_eq_ok hgroup
    cases hgroup
    cases h
    refine ⟨fun _ h => (Option.some.inj h).symm, (fun _ _ h => by cases h),
      fun left' cs' traces hcs ht u hu => ?_, fun h => by cases h⟩
    cases hcs
    cases ht
    obtain ⟨target, -, htarget⟩ := exists_of_mapM helements hu
    obtain ⟨results, hall, htarget⟩ := bind_eq_ok htarget
    exact ⟨target, results, hall, (Except.ok.inj htarget).symm⟩

theorem showsTest_of_interpret {r : Rule} (h : r.interpret tongue now record env = .ok t) :
    ∃ e, env.Grows (Members.names r.locals) e ∧ ShowsTest tongue now r.test record e t ∧
      ∀ traces, t.dependencyTraces = some traces →
        interpretAll tongue now r.dependencies record e = .ok traces := by
  cases hempty : r.dependencies.isEmpty with
  | true =>
    rw [interpret_ungated (List.isEmpty_iff.mp hempty)] at h
    obtain ⟨e, hextend, h⟩ := bind_eq_ok h
    refine ⟨e, grows_of_extend hextend, showsTest_of_interpretTest h, fun traces ht => ?_⟩
    exact nomatch (ungated_of_interpretTest h).traces.symm.trans ht
  | false =>
    rw [interpret_gated hempty] at h
    obtain ⟨e, hextend, h⟩ := bind_eq_ok h
    obtain ⟨traces, hall, h⟩ := bind_eq_ok h
    obtain ⟨trace, htrace, rfl⟩ := map_eq_ok h
    refine ⟨e, grows_of_extend hextend, ?_, fun traces' ht => Option.some.inj ht ▸ hall⟩
    have hshows : ShowsTest tongue now r.test record e trace := by
      split at htrace
      · exact showsTest_of_interpretTest htrace
      · cases htrace
        exact showsTest_of_no_results (fun _ h => (Option.some.inj h).symm) rfl
    exact ⟨hshows.environment, hshows.members, hshows.elements, hshows.leaves⟩

end ShowsTest

/-- A trace is what a rule says of some record, but for the kind that it is labelled with. -/
def Tells (tongue : ScopeId → String) (now : Instant) (r : Rule) (env : Environment) (t : Trace) :
    Prop :=
  ∃ record kind, r.interpret tongue now record env = .ok { t with kind }

theorem tells_of_interpret {r : Rule} {t : Trace}
    (h : r.interpret tongue now record env = .ok t) : Tells tongue now r env t := by
  cases t
  exact ⟨record, _, h⟩

/-- The trace of an element is what the group of the rules that it is tested by says of it. -/
theorem tells_elementGroup {r : Rule} {left : Option Operand} {cs : List Rule}
    (htest : r.test = .iterate left cs) {target : Json} {results : List Trace}
    (h : interpretAll tongue now cs target env = .ok results) :
    Tells tongue now r.elementGroup env
      { Trace.of .iterate .all env (results.all (·.result)) with results := some results } := by
  refine ⟨target, some .compound, ?_⟩
  have hchildren : r.children = cs := by rw [children, htest]; rfl
  have hcombine : Operator.all.combine (results.map (·.result)) = .ok (results.all (·.result)) := by
    rw [Operator.combine, List.all_map]
    rfl
  rw [elementGroup, hchildren, of, interpret_ungated rfl]
  change interpretTest tongue now .all r.scope (.compound cs) target env = _
  rw [interpretTest, h]
  change conclude .compound .all env results = _
  rw [conclude, hcombine]
  rfl

/-- The trace of a rule in the environment of its variables, which is the one that it shows and the
one that all traces directly below are told in. -/
structure Situated (tongue : ScopeId → String) (now : Instant) (r : Rule) (e : Environment)
    (t : Trace) : Prop where
  environment : ∀ inner, t.environment = some inner → inner = e
  below : ∀ b u, Under r t b u → Tells tongue now b e u
  parts : ∀ u ∈ t.parts, ∃ b, Under r t b u

theorem Tells.situated {r : Rule} {t : Trace} (h : Tells tongue now r env t) :
    ∃ e, env.Grows (Members.names r.locals) e ∧ Situated tongue now r e t := by
  obtain ⟨record, kind, h⟩ := h
  obtain ⟨e, hgrows, hshows, hdependencies⟩ := showsTest_of_interpret h
  have htold : ∀ rs : List Rule, ∀ target ts, interpretAll tongue now rs target e = .ok ts →
      ∀ b u, (b, u) ∈ rs.zip ts → Tells tongue now b e u := by
    intro rs target ts hall b u hu
    exact tells_of_interpret ((List.forall₂_iff_zip.mp (interpretAll_eq_ok hall)).2 hu)
  refine ⟨e, hgrows, hshows.environment, fun b u hu => ?_, fun u hu => ?_⟩
  · cases hu with
    | dependency ht hu => exact htold _ _ _ (hdependencies _ ht) _ _ hu
    | member htest ht hu => exact htold _ _ _ (hshows.members _ _ htest ht) _ _ hu
    | element htest ht hu =>
      obtain ⟨target, results, hall, rfl⟩ := hshows.elements _ _ _ htest ht _ hu
      exact tells_elementGroup htest hall
  · rcases Trace.mem_parts.mp hu with ⟨traces, ht, hu⟩ | ⟨traces, ht, hu⟩
    · cases htest : r.test with
      | compound cs =>
        have hall := interpretAll_eq_ok (hshows.members _ _ htest ht)
        obtain ⟨b, hb⟩ := exists_zip_of_forall₂ hall hu
        exact ⟨b, .member htest ht hb⟩
      | iterate left cs => exact ⟨_, .element htest ht hu⟩
      | compare as left right => cases (hshows.leaves (by rw [htest]; rfl)).symm.trans ht
      | presence left => cases (hshows.leaves (by rw [htest]; rfl)).symm.trans ht
    · obtain ⟨b, hb⟩ := exists_zip_of_forall₂ (interpretAll_eq_ok (hdependencies _ ht)) hu
      exact ⟨b, .dependency ht hb⟩

/-- Every step down adds the variables of the rule that it leads to. -/
theorem Situated.descends {r b : Rule} {t v : Trace} {names : List String}
    (hd : Descends r t names b v) : {e : Environment} → Situated tongue now r e t →
      ∃ f, e.Grows names f ∧ Situated tongue now b f v := by
  induction hd with
  | here => exact fun h => ⟨_, .refl _ _, h⟩
  | under ha _ ih =>
    intro e h
    obtain ⟨e', hgrows, hsituated⟩ := (h.below _ _ ha).situated
    obtain ⟨f, hgrows', hf⟩ := ih hsituated
    exact ⟨f, hgrows.trans hgrows', hf⟩

/-! ## Traces of rules with other scopes -/

section Essence

variable {r a b : Rule} {t u v : Trace} {names : List String}

theorem exists_zip_of_essence {rs as : List Rule} {ts : List Trace}
    (h : bareAll (fun _ => ⟨0⟩) as = bareAll (fun _ => ⟨0⟩) rs) (hu : (b, u) ∈ rs.zip ts) :
    ∃ c, (c, u) ∈ as.zip ts ∧ c.essence = b.essence := by
  have hmap : as.map essence = rs.map essence := by
    rw [bareAll_eq_map, bareAll_eq_map] at h
    exact h
  have hmem : (b.essence, u) ∈ (rs.map essence).zip ts := by
    rw [List.zip_map_left]
    exact List.mem_map.mpr ⟨(b, u), hu, rfl⟩
  rw [← hmap, List.zip_map_left] at hmem
  obtain ⟨⟨c, u'⟩, hc, heq⟩ := List.mem_map.mp hmem
  obtain ⟨hessence, rfl⟩ := Prod.mk.inj heq
  exact ⟨c, hc, hessence⟩

theorem Under.of_essence (h : a.essence = r.essence) (hu : Under r t b u) :
    ∃ c, Under a t c u ∧ c.essence = b.essence := by
  obtain ⟨test, op, dependencies, locals, description, scope, memo⟩ := r
  obtain ⟨test', op', dependencies', locals', description', scope', memo'⟩ := a
  rw [essence, essence, bare, bare, Rule.mk.injEq] at h
  obtain ⟨htests, -, hdependencies, -⟩ := h
  cases hu with
  | dependency ht hu =>
    obtain ⟨c, hc, hessence⟩ := exists_zip_of_essence hdependencies hu
    exact ⟨c, .dependency ht hc, hessence⟩
  | member htest ht hu =>
    obtain rfl := htest
    cases test' with
    | compound cs' =>
      obtain ⟨c, hc, hessence⟩ := exists_zip_of_essence (Test.compound.inj htests) hu
      exact ⟨c, .member rfl ht hc, hessence⟩
    | _ => cases htests
  | element htest ht hu =>
    obtain rfl := htest
    cases test' with
    | iterate left' cs' =>
      refine ⟨_, .element rfl ht hu, ?_⟩
      exact congrArg (fun cs => Rule.mk (.compound cs) .all [] [] none ⟨0⟩ none)
        (Test.iterate.inj htests).2
    | _ => cases htests

theorem locals_eq_of_essence (h : a.essence = r.essence) : a.locals = r.locals := by
  obtain ⟨test, op, dependencies, locals, description, scope, memo⟩ := r
  obtain ⟨test', op', dependencies', locals', description', scope', memo'⟩ := a
  rw [essence, essence, bare, bare, Rule.mk.injEq] at h
  exact h.2.2.2.1

theorem Descends.of_essence (hd : Descends r t names b v) : {a : Rule} →
    a.essence = r.essence → ∃ c, Descends a t names c v ∧ c.essence = b.essence := by
  induction hd with
  | here => exact fun h => ⟨_, .here, h⟩
  | under ha _ ih =>
    intro a h
    obtain ⟨a', hu, hessence⟩ := ha.of_essence h
    obtain ⟨c, hc, hlast⟩ := ih hessence
    refine ⟨c, ?_, hlast⟩
    rw [← locals_eq_of_essence hessence]
    exact .under hu hc

end Essence

/-- Every environment in the trace of a compiled rule binds all that the caller bound, and all that
any environment above it binds, to the same; what it binds besides are variables of the rules in
between.  Each trace in it is that of a rule below, or of an element. -/
theorem environments_of_run {r : Rule} {s u : Session} {force : Bool} {c : Check}
    (hr : Reliable s.tongue r) (hs : s.Reached) (hc : (r.compile force s).1.1 = .ok c)
    (hu : u.Reached) (now : Instant) (record : Json) (env : Environment) {t : Trace}
    (ht : (c.run now record env u).1 = .ok t) {names : List String} {a : Rule} {v : Trace}
    (hv : Descends r t names a v) :
    (∀ w ∈ v.parts, ∃ b, Under a v b w) ∧
      (∀ inner, v.environment = some inner →
        env.Grows (Members.names r.locals ++ names) inner) ∧
      ∀ names' b w, Descends a v names' b w → ∀ outer inner, v.environment = some outer →
        w.environment = some inner → Environment.Grows names' outer inner := by
  obtain ⟨-, r', hessence, -, hsays⟩ := hr.says_like hs.sound hc
  obtain ⟨u', hrun, -⟩ := hsays now record env u hu.sound
  rw [hrun] at ht
  have htells : Tells s.tongue now r' env t := tells_of_interpret ht
  obtain ⟨e, hgrows, hsituated⟩ := htells.situated
  rw [locals_eq_of_essence hessence] at hgrows
  obtain ⟨a', ha', hessence'⟩ := hv.of_essence hessence
  obtain ⟨f, hgrows', hsituated'⟩ := hsituated.descends ha'
  refine ⟨fun w hw => ?_, fun inner hinner => ?_, fun names' b w hw outer inner ho hi => ?_⟩
  · obtain ⟨b', hb'⟩ := hsituated'.parts w hw
    obtain ⟨b, hb, -⟩ := hb'.of_essence hessence'.symm
    exact ⟨b, hb⟩
  · rw [hsituated'.environment inner hinner]
    exact hgrows.trans hgrows'
  · obtain ⟨b', hb', -⟩ := hw.of_essence hessence'
    obtain ⟨g, hgrows'', hsituated''⟩ := hsituated'.descends hb'
    rw [hsituated'.environment outer ho, hsituated''.environment inner hi]
    exact hgrows''

/-- Two rules bind one name, and the lower one also a name that the caller has bound. -/
theorem environments_of_run_rebound :
    let leaf := (of ⟨0⟩ (.presence (some (.of .record))) .isTrue).setVariable "x" (.literal .null)
      |>.setVariable "y" (.literal .null)
    let r := (iterate ⟨0⟩ (.literal (.arr [.null, .bool true])) .any [leaf]).setVariable "x"
      (.literal (.bool true))
    let env : Environment := [("y", .bool false)]
    let s : Session := {}
    Reliable s.tongue r ∧ s.Reached ∧ ∃ c t names v e, (r.compile false s).1.1 = .ok c ∧
      (c.run default .null env s).1 = .ok t ∧ Descends r t names leaf v ∧ v.environment = some e ∧
        Members.value? "x" e = some (Json.bool true) ∧
          env.Grows (Members.names r.locals ++ names) e := by
  intro leaf r env s
  have hcold : ∀ n ∈ r.nodes, n.memo = none := by
    rw [show r.nodes = [r, leaf] from rfl]
    simp only [List.forall_mem_cons]
    exact ⟨rfl, rfl, nofun⟩
  have hr : Reliable s.tongue r := .warmed (.cold hcold)
  have hs : s.Reached := Session.reached_empty
  have hruns : ∃ c t elements element traces v e, (r.compile false s).1.1 = .ok c ∧
      (c.run default .null env s).1 = .ok t ∧ t.results = some elements ∧ element ∈ elements ∧
        element.results = some traces ∧ (leaf, v) ∈ [leaf].zip traces ∧ v.environment = some e ∧
          Members.value? "x" e = some (Json.bool true) :=
    ⟨_, _, _, _, _, _, _, rfl, rfl, rfl, .head _, rfl, .head _, rfl, by
      simp [Check.bind, Check.resolve, Members.value?_overlay, Members.value?_gather,
        Members.value?, Getter.value, env]⟩
  obtain ⟨c, t, elements, element, traces, v, e, hc, ht, helements, hmem, htraces, hv, he, hx⟩ :=
    hruns
  have hdescends : Descends r t _ leaf v :=
    .under (.element rfl helements hmem) (.under (.member rfl htraces hv) .here)
  obtain ⟨-, hgrows, -⟩ := environments_of_run hr hs hc hs default .null env ht hdescends
  exact ⟨hr, hs, c, t, _, v, e, hc, ht, hdescends, he, hx, hgrows e he⟩

end Rule

end Verdict
