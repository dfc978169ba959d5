import Verdict.Proofs.Operand.Names
import Verdict.Proofs.Rule.Environment
import Verdict.Proofs.Rule.Faults

/-!
# Names that rules read

What a rule says depends on its environment only by the names that operands in it look up.  All
other names, those of its own variables among them, show in the environments of its trace and
nowhere else.
-/

namespace Verdict

/-! ## Traces without environments -/

namespace Trace

mutual
/-- The trace without the environments in it. -/
def stripped : Trace → Trace
  | ⟨kind, operator, _, left, right, result, results, targets, dependencies, traces⟩ =>
    ⟨kind, operator, none, left, right, result, strippedParts results, targets, dependencies,
      strippedParts traces⟩

def strippedParts : Option (List Trace) → Option (List Trace)
  | none => none
  | some ts => some (strippedAll ts)

def strippedAll : List Trace → List Trace
  | [] => []
  | t :: rest => stripped t :: strippedAll rest
end

theorem strippedAll_eq_map (ts : List Trace) : strippedAll ts = ts.map stripped := by
  induction ts with
  | nil => rfl
  | cons t rest ih => rw [strippedAll, ih, List.map_cons]

@[simp]
theorem result_stripped (t : Trace) : t.stripped.result = t.result := by
  cases t
  rfl

theorem stripped_targets (t : Trace) (targets : Option (List Json)) :
    stripped { t with targets } = { t.stripped with targets } := by
  cases t
  rfl

theorem stripped_dependencies (t : Trace) (passed : Option Bool) (traces : List Trace) :
    stripped { t with dependencies := passed, dependencyTraces := some traces } =
      { t.stripped with
        dependencies := passed, dependencyTraces := some (traces.map stripped) } := by
  cases t
  rw [stripped, strippedParts, strippedAll_eq_map]
  rfl

/-- Traces that differ in their environments only have the same results. -/
theorem results_eq_of_stripped {ts ts' : List Trace} (h : ts.map stripped = ts'.map stripped) :
    ts.map (·.result) = ts'.map (·.result) := by
  have hresults : ∀ us : List Trace, us.map (·.result) = (us.map stripped).map (·.result) := by
    intro us
    rw [List.map_map]
    exact List.map_congr_left fun t _ => (result_stripped t).symm
  rw [hresults ts, hresults ts', h]

theorem all_result_eq_of_stripped {ts ts' : List Trace} (h : ts.map stripped = ts'.map stripped) :
    ts.all (·.result) = ts'.all (·.result) := by
  have hall : ∀ us : List Trace, us.all (·.result) = (us.map (·.result)).all id := by
    intro us
    rw [List.all_map]
    rfl
  rw [hall ts, hall ts', results_eq_of_stripped h]

end Trace

open Trace

namespace Rule

/-! ## Names -/

def ownReads (n : Rule) : List String :=
  n.locals.flatMap (·.2.reads) ++ (Operand.readsBound n.left ++ Operand.readsBound n.right)

/-- The names that the operands of a tree read, in its variables, its dependencies and its tests. -/
def reads (r : Rule) : List String :=
  r.nodes.flatMap ownReads

mutual
/-- The tree in which every node has only those of its variables that go by some names, and keeps
no check. -/
def withLocals (names : List String) : Rule → Rule
  | ⟨test, op, dependencies, locals, description, scope, _⟩ =>
    ⟨withLocalsBelow names test, op, withLocalsAll names dependencies,
      locals.filter fun l => names.contains l.1, description, scope, none⟩

def withLocalsBelow (names : List String) : Test Rule → Test Rule
  | .compound cs => .compound (withLocalsAll names cs)
  | .iterate l cs => .iterate l (withLocalsAll names cs)
  | .compare as l r => .compare as l r
  | .presence l => .presence l

def withLocalsAll (names : List String) : List Rule → List Rule
  | [] => []
  | r :: rest => withLocals names r :: withLocalsAll names rest
end

/-- A usable node all of whose operands read only some names. -/
structure ReadsOnly (names : List String) (n : Rule) : Prop where
  usable : n.Usable
  reads : n.ownReads ⊆ names

variable {names : List String} {tongue : ScopeId → String} {now : Instant} {record : Json}
  {env env' : Environment}

theorem ReadsOnly.reads_subset {n : Rule} (h : n.ReadsOnly names) :
    (∀ l ∈ n.locals, l.2.reads ⊆ names) ∧ Operand.readsBound n.left ⊆ names ∧
      Operand.readsBound n.right ⊆ names := by
  have hreads := h.reads
  rw [ownReads, List.append_subset, List.append_subset] at hreads
  refine ⟨fun l hl name hname => ?_, hreads.2⟩
  exact hreads.1 (List.mem_flatMap.mpr ⟨l, hl, hname⟩)

theorem kind_withLocalsBelow (test : Test Rule) :
    (withLocalsBelow names test).kind = test.kind := by
  cases test with
  | compare as l r => rfl
  | _ => rfl

theorem isEmpty_withLocalsAll (rs : List Rule) : (withLocalsAll names rs).isEmpty = rs.isEmpty := by
  cases rs <;> rfl

/-! ## Variables -/

def worth (kind : Kind) (locale : String) (now : Instant) (record : Json) (env : Environment)
    (o : Operand) : Json :=
  match o.find kind locale now record env with
  | .ok v => v.getD .null
  | .error _ => .null

/-- A name is bound to what the caller bound it to, and else to the last variable of that name. -/
theorem value?_extend (kind : Kind) (locale : String) (now : Instant) (record : Json)
    (env : Environment) {locals : Members Operand} (husable : ∀ l ∈ locals, l.2.Usable) :
    ∃ e, extend kind locale now record env locals = .ok e ∧ ∀ name, e.value? name =
      (env.value? name).or (Members.value? name
        (locals.map fun l => (l.1, worth kind locale now record env l.2)).reverse) := by
  have hfound : (locals.mapM fun l =>
      return (l.1, (← l.2.find kind locale now record env).getD .null) :
        Except Fault (List (String × Json))) =
      .ok (locals.map fun l => (l.1, worth kind locale now record env l.2)) := by
    induction locals with
    | nil => rfl
    | cons l rest ih =>
      rw [List.forall_mem_cons] at husable
      obtain ⟨v, hv⟩ := l.2.find_isOk kind locale now record env husable.1
      rw [List.mapM_cons, ih husable.2, List.map_cons, worth, hv]
      rfl
  rw [extend, hfound]
  cases locals with
  | nil => exact ⟨env, rfl, fun name => (Option.or_none).symm⟩
  | cons l rest =>
    refine ⟨_, rfl, fun name => ?_⟩
    rw [Members.value?_overlay, Members.value?_gather]

/-- Environments that agree on the names that are read agree on them below the variables of a node
as well, even without the variables of other names. -/
theorem extend_withLocals (kind : Kind) (locale : String) (now : Instant) (record : Json)
    {locals : Members Operand} (husable : ∀ l ∈ locals, l.2.Usable)
    (hreads : ∀ l ∈ locals, l.2.reads ⊆ names) (h : env.AgreeOn names env') :
    ∃ e e', extend kind locale now record env locals = .ok e ∧
      extend kind locale now record env' (locals.filter fun l => names.contains l.1) = .ok e' ∧
        Environment.AgreeOn names e e' := by
  have husable' : ∀ l ∈ locals.filter fun l => names.contains l.1, l.2.Usable :=
    fun l hl => husable l (List.mem_filter.mp hl).1
  obtain ⟨e, he, hvalue⟩ := value?_extend kind locale now record env husable
  obtain ⟨e', he', hvalue'⟩ := value?_extend kind locale now record env' husable'
  refine ⟨e, e', he, he', fun name hname => ?_⟩
  have hworth : ∀ l ∈ locals, worth kind locale now record env l.2 =
      worth kind locale now record env' l.2 := by
    intro l hl
    rw [worth, worth, Operand.find_of_agreeOn h l.2 (hreads l hl)]
  have hbound : locals.map (fun l => (l.1, worth kind locale now record env l.2)) =
      locals.map fun l => (l.1, worth kind locale now record env' l.2) :=
    List.map_congr_left fun l hl => by rw [hworth l hl]
  have hkept : (locals.filter fun l => names.contains l.1).map
        (fun l => (l.1, worth kind locale now record env' l.2)) =
      (locals.map fun l => (l.1, worth kind locale now record env' l.2)).filter
        fun m => names.contains m.1 := by
    rw [List.filter_map]
    rfl
  rw [hvalue, hvalue', h name hname, hbound, hkept, ← List.filter_reverse,
    Members.value?_filter (List.contains_iff_mem.mpr hname)]

/-! ## Tests -/

theorem traceExtent_stripped (kind : Kind) (op : Operator) (env env' : Environment)
    (left right : Option Json) : (Check.traceExtent kind op env left right).stripped =
      (Check.traceExtent kind op env' left right).stripped := by
  rw [Check.traceExtent, Check.traceExtent]
  split <;> rfl

theorem interpretComparison_of_agreeOn {locale : String} {op : Operator} {as : Comparand}
    {left right : Option Operand} (hleft : Operand.readsBound left ⊆ names)
    (hright : Operand.readsBound right ⊆ names) (h : env.AgreeOn names env') :
    (interpretComparison locale now op as left right record env).map stripped =
      (interpretComparison locale now op as left right record env').map stripped := by
  rw [interpretComparison, interpretComparison]
  split
  · rfl
  · rw [Operand.findBound_of_agreeOn h left hleft, Operand.findBound_of_agreeOn h right hright]
    refine map_bind_congr_right _ fun l => map_bind_congr_right _ fun r => ?_
    cases as with
    | values => exact map_bind_congr_right _ fun result => rfl
    | dates | times =>
      refine congrArg Except.ok ?_
      split
      · exact traceExtent_stripped ..
      · rfl

theorem conclude_of_stripped {kind : Kind} {op : Operator} {ts ts' : List Trace}
    (h : ts.map stripped = ts'.map stripped) :
    (conclude kind op env ts).map stripped = (conclude kind op env' ts').map stripped := by
  rw [conclude, conclude, results_eq_of_stripped h]
  refine map_bind_congr_right _ fun result => congrArg Except.ok ?_
  simp only [stripped, strippedParts, strippedAll_eq_map, h, Trace.of]

/-! ## Trees -/

mutual
/-- A tree says the same as without the variables that it does not read, in environments that agree
on the names that it reads, but for the environments in its traces. -/
theorem interpret_withLocals : (r : Rule) → (∀ n ∈ r.nodes, n.ReadsOnly names) →
    ∀ (record : Json) {env env' : Environment}, env.AgreeOn names env' →
      (r.interpret tongue now record env).map stripped =
        ((r.withLocals names).interpret tongue now record env').map stripped
  | ⟨test, op, dependencies, locals, description, scope, memo⟩, hr, record, env, env', h => by
    rw [nodes, List.forall_mem_cons, List.forall_mem_append] at hr
    obtain ⟨hself, hbelow, hdepend⟩ := hr
    obtain ⟨hlocals, hleft, hright⟩ := hself.reads_subset
    obtain ⟨e, e', he, he', hagree⟩ :=
      extend_withLocals test.kind (tongue scope) now record hself.usable.locals hlocals h
    have htest := interpretTest_withLocals op scope test hleft hright hbelow record hagree
    have hdependencies := interpretAll_withLocals dependencies hdepend record hagree
    rw [withLocals, interpret, interpret, kind_withLocalsBelow, he, he', isEmpty_withLocalsAll]
    change Except.map stripped (if _ then _ else _) = Except.map stripped (if _ then _ else _)
    split
    · exact htest
    · refine map_bind_congr hdependencies fun ts ts' hts => ?_
      rw [all_result_eq_of_stripped hts]
      dsimp only
      split
      · refine map_bind_congr htest fun t t' ht => congrArg Except.ok ?_
        rw [stripped_dependencies, stripped_dependencies, hts, ht]
      · refine congrArg Except.ok ?_
        rw [stripped_dependencies, stripped_dependencies, hts]
        rfl

theorem interpretTest_withLocals (op : Operator) (scope : ScopeId) : (test : Test Rule) →
    Operand.readsBound test.left ⊆ names → Operand.readsBound test.right ⊆ names →
    (∀ n ∈ nodesBelow test, n.ReadsOnly names) →
    ∀ (record : Json) {env env' : Environment}, env.AgreeOn names env' →
      (interpretTest tongue now op scope test record env).map stripped =
        (interpretTest tongue now op scope (withLocalsBelow names test) record env').map stripped
  | .compare as left right, hleft, hright, _, record, env, env', h => by
    rw [withLocalsBelow, interpretTest, interpretTest]
    exact interpretComparison_of_agreeOn hleft hright h
  | .compound cs, _, _, hbelow, record, env, env', h => by
    rw [withLocalsBelow, interpretTest, interpretTest]
    exact map_bind_congr (interpretAll_withLocals cs hbelow record h) fun ts ts' hts =>
      conclude_of_stripped hts
  | .iterate left cs, hleft, _, hbelow, record, env, env', h => by
    rw [withLocalsBelow, interpretTest, interpretTest, Operand.findBound_of_agreeOn h left hleft]
    refine map_bind_congr_right _ fun v => ?_
    refine map_bind_congr (g := List.map stripped) (map_mapM_congr (fun target => ?_) _)
      fun ts ts' hts => ?_
    · refine map_bind_congr (interpretAll_withLocals cs hbelow target h) fun us us' hus => ?_
      refine congrArg Except.ok ?_
      simp only [stripped, strippedParts, strippedAll_eq_map, hus, Trace.of,
        all_result_eq_of_stripped hus]
    · refine map_bind_congr (conclude_of_stripped hts) fun t t' ht => congrArg Except.ok ?_
      rw [stripped_targets, stripped_targets, ht]
  | .presence left, hleft, _, _, record, env, env', h => by
    rw [withLocalsBelow, interpretTest, interpretTest]
    split
    · rfl
    · rw [Operand.findBound_of_agreeOn h left hleft]
      exact map_bind_congr_right _ fun v => rfl

theorem interpretAll_withLocals : (rs : List Rule) → (∀ n ∈ nodesAll rs, n.ReadsOnly names) →
    ∀ (record : Json) {env env' : Environment}, env.AgreeOn names env' →
      (interpretAll tongue now rs record env).map (List.map stripped) =
        (interpretAll tongue now (withLocalsAll names rs) record env').map (List.map stripped)
  | [], _, _, _, _, _ => rfl
  | r :: rest, hrs, record, env, env', h => by
    rw [nodesAll, List.forall_mem_append] at hrs
    rw [withLocalsAll, interpretAll, interpretAll]
    refine map_bind_congr (interpret_withLocals r hrs.1 record h) fun t t' ht => ?_
    refine map_bind_congr (interpretAll_withLocals rest hrs.2 record h) fun ts ts' hts => ?_
    exact congrArg Except.ok (congrArg₂ List.cons ht hts)
end

/-! ## Trees without some variables -/

mutual
theorem nodes_withLocals : (r : Rule) →
    (r.withLocals names).nodes = r.nodes.map (withLocals names)
  | ⟨test, op, dependencies, locals, description, scope, memo⟩ => by
    rw [nodes, List.map_cons, List.map_append, ← nodesBelow_withLocals test,
      ← nodesAll_withLocals dependencies, withLocals, nodes]

theorem nodesBelow_withLocals : (test : Test Rule) →
    nodesBelow (withLocalsBelow names test) = (nodesBelow test).map (withLocals names)
  | .compound cs => nodesAll_withLocals cs
  | .iterate _ cs => nodesAll_withLocals cs
  | .compare .. => rfl
  | .presence _ => rfl

theorem nodesAll_withLocals : (rs : List Rule) →
    nodesAll (withLocalsAll names rs) = (nodesAll rs).map (withLocals names)
  | [] => rfl
  | r :: rest => by
    rw [withLocalsAll, nodesAll, nodesAll, List.map_append, nodes_withLocals r,
      nodesAll_withLocals rest]
end

theorem Usable.withLocals {n : Rule} (h : n.Usable) : (n.withLocals names).Usable := by
  obtain ⟨test, op, dependencies, locals, description, scope, memo⟩ := n
  obtain ⟨hlocals, htest⟩ := h
  refine ⟨fun l hl => hlocals l (List.mem_filter.mp hl).1, ?_⟩
  have hne : ∀ cs : List Rule, cs ≠ [] → withLocalsAll names cs ≠ [] := by
    rintro (_ | ⟨c, rest⟩) hcs
    · exact absurd rfl hcs
    · exact List.cons_ne_nil _ _
  cases test with
  | compare as left right => exact htest
  | presence left => exact htest
  | compound cs => exact ⟨hne cs htest.1, htest.2⟩
  | iterate left cs => exact ⟨hne cs htest.1, htest.2⟩

/-- A tree that passes its audit compiles without some of its variables as well, and then says what
it means without them. -/
theorem compile_withLocals {r : Rule} {s : Session} (haudit : r.audit = .ok ()) (hs : s.Sound)
    (names : List String) (force : Bool) :
    ∃ d, ((r.withLocals names).compile force s).1.1 = .ok d ∧
      Says s.tongue d (r.withLocals names) := by
  have hcold : ∀ n ∈ (r.withLocals names).nodes, n.memo = none := by
    intro n hn
    rw [nodes_withLocals] at hn
    obtain ⟨⟨_⟩, -, rfl⟩ := List.mem_map.mp hn
    rfl
  have hkept : (r.withLocals names).audit = .ok () := by
    rw [audit_eq_ok_iff, nodes_withLocals, List.forall_mem_map]
    exact fun n hn => ((audit_eq_ok_iff r).mp haudit n hn).withLocals
  have hsettles := compile_settles hs (keeps_cold hcold) force
  cases hcompile : ((r.withLocals names).compile force s).1.1 with
  | ok d =>
    rw [hcompile] at hsettles
    exact ⟨d, rfl, hsettles.2⟩
  | error f =>
    rw [hcompile, Work.Settles, hkept] at hsettles
    cases hsettles

theorem readsOnly_of_audit {r : Rule} (haudit : r.audit = .ok ()) (h : r.reads ⊆ names) :
    ∀ n ∈ r.nodes, n.ReadsOnly names := fun n hn =>
  ⟨(audit_eq_ok_iff r).mp haudit n hn, fun _ hname => h (List.mem_flatMap.mpr ⟨n, hn, hname⟩)⟩

theorem reads_of_essence {a b : Rule} (h : a.essence = b.essence) : a.reads = b.reads := by
  have hnode : ∀ x : Rule, x.essence.ownReads = x.ownReads := by
    rintro ⟨test, op, dependencies, locals, description, scope, memo⟩
    simp only [ownReads, essence, bare, left, right, left_bareBelow, right_bareBelow]
  have hessence : ∀ r : Rule, r.essence.reads = r.reads := by
    intro r
    rw [reads, essence, nodes_bare, List.flatMap_map, reads]
    exact congrArg r.nodes.flatMap (funext hnode)
  rw [← hessence a, h, hessence]

/-! ## Runs -/

/-- Names that no operand reads do not interfere.  A compiled rule comes to the same fault, or to
traces that differ in their environments only, in any two environments that agree on the names that
its operands read; and it comes to the same without any variables that its operands do not read.
The times are the same, or no day beside the current one is read. -/
theorem run_of_agreeOn {r : Rule} {s : Session} {force : Bool} {c : Check}
    (hr : Reliable s.tongue r) (hs : s.Reached) (hc : (r.compile force s).1.1 = .ok c) :
    (∀ (now now' : Instant) (record : Json) (env env' : Environment) (u u' : Session),
        r.isTimeless = true ∨ now = now' → env.AgreeOn r.reads env' → u.Reached → u'.Reached →
          (c.run now record env u).1.map Trace.stripped =
            (c.run now' record env' u').1.map Trace.stripped) ∧
      ∃ t : Rule, t.essence = r.essence ∧ (Warmed s.tongue r → t = r) ∧
        ∀ (names : List String) (force' : Bool) (s' : Session), r.reads ⊆ names → s'.Reached →
          s'.tongue = s.tongue → ∃ d, ((t.withLocals names).compile force' s').1.1 = .ok d ∧
            ∀ (now now' : Instant) (record : Json) (env : Environment) (u u' : Session),
              r.isTimeless = true ∨ now = now' → u.Reached → u'.Reached →
                (c.run now record env u).1.map Trace.stripped =
                  (d.run now' record env u').1.map Trace.stripped := by
  obtain ⟨haudit, t, hessence, hsame, hsays⟩ := hr.says_like hs.sound hc
  have haudit' : t.audit = .ok () := (audit_eq_of_bare _ hessence).trans haudit
  have hreads : t.reads = r.reads := reads_of_essence hessence
  have hsteady : ∀ now now', r.isTimeless = true ∨ now = now' →
      t.interpret s.tongue now = t.interpret s.tongue now' := by
    intro now now' htime
    refine interpret_congr t fun n hn => ⟨rfl, htime.imp_left fun h => ?_⟩
    rw [← isTimeless_of_essence hessence] at h
    exact List.all_eq_true.mp h n hn
  have hmeans : ∀ now now', r.isTimeless = true ∨ now = now' → ∀ (names : List String),
      r.reads ⊆ names → ∀ (record : Json) (env env' : Environment) (u : Session),
        env.AgreeOn names env' → u.Reached → (c.run now record env u).1.map Trace.stripped =
          ((t.withLocals names).interpret s.tongue now' record env').map Trace.stripped := by
    intro now now' htime names hnames record env env' u hagree hu
    obtain ⟨_, hrun, -⟩ := hsays now record env u hu.sound
    rw [hrun, hsteady now now' htime]
    exact interpret_withLocals t (readsOnly_of_audit haudit' (hreads ▸ hnames)) record hagree
  refine ⟨fun now now' record env env' u u' htime hagree hu hu' => ?_, t, hessence, hsame, ?_⟩
  · -- without the variables that are not read, both environments give the same
    have hself : r.reads ⊆ r.reads := List.Subset.refl _
    rw [hmeans now now' htime r.reads hself record env env' u hagree hu,
      hmeans now' now' (.inr rfl) r.reads hself record env' env' u' (.refl _ env') hu']
  · intro names force' s' hnames hs' htongue
    obtain ⟨d, hd, hsays'⟩ := compile_withLocals haudit' hs'.sound names force'
    refine ⟨d, hd, fun now now' record env u u' htime hu hu' => ?_⟩
    obtain ⟨_, hrun, -⟩ := hsays' now' record env u' hu'.sound
    rw [hrun, htongue]
    exact hmeans now now' htime names hnames record env env u (.refl _ env) hu

/-- Of two variables one is read below, and the caller binds a name more in one environment than in
the other. -/
theorem run_of_agreeOn_unread :
    let r := (of ⟨0⟩ (.presence (some (.of (.env "x")))) .isTrue).setVariable "x" (.of (.env "y"))
      |>.setVariable "z" (.literal .null)
    let env : Environment := [("y", .bool true)]
    let env' : Environment := [("w", .null), ("y", .bool true)]
    let s : Session := {}
    Reliable s.tongue r ∧ s.Reached ∧ r.isTimeless = true ∧ env.AgreeOn r.reads env' ∧
      Members.names (r.withLocals ["x", "y"]).locals = ["x"] ∧ ∃ c d,
        (r.compile false s).1.1 = .ok c ∧ ((r.withLocals ["x", "y"]).compile false s).1.1 = .ok d ∧
          ∀ now now' record, (c.run now record env s).1.map Trace.stripped =
              (c.run now' record env' s).1.map Trace.stripped ∧
            (c.run now record env s).1.map Trace.stripped =
              (d.run now' record env s).1.map Trace.stripped := by
  intro r env env' s
  have hwarmed : Warmed s.tongue r := .cold fun n hn => by rw [List.mem_singleton.mp hn]; rfl
  have hs : s.Reached := Session.reached_empty
  have htimeless : r.isTimeless = true := by decide
  have hreads : r.reads = ["y", "x"] := by decide
  have hagree : env.AgreeOn r.reads env' := by
    rw [hreads]
    simp only [Environment.AgreeOn, List.forall_mem_cons]
    exact ⟨rfl, rfl, nofun⟩
  have hcompiles : ∃ c, (r.compile false s).1.1 = .ok c := exists_of_isOk (by decide)
  obtain ⟨c, hc⟩ := hcompiles
  obtain ⟨hagrees, t, -, hsame, hdrops⟩ := run_of_agreeOn (.warmed hwarmed) hs hc
  obtain rfl := hsame hwarmed
  obtain ⟨d, hd, hdrops⟩ := hdrops ["x", "y"] false s (by rw [hreads]; simp) hs rfl
  refine ⟨.warmed hwarmed, hs, htimeless, hagree, by decide, c, d, hc, hd, ?_⟩
  intro now now' record
  exact ⟨hagrees now now' record env env' s s (.inl htimeless) hagree hs hs,
    hdrops now now' record env s s (.inl htimeless) hs hs⟩

end Rule

end Verdict
