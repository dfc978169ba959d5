import Verdict.Proofs.Rule.Usable
import Verdict.Proofs.Step.Dates

/-!
# Dates stay dates

Comparisons of dates only see the instants of their operands.  A step that moves dates by nothing
keeps those that can be written with four digits for their year, so it does not change what a
comparison comes to, wherever it stands: at the end of an operand, in front of other steps that
move dates, or in a bound.
-/

namespace Verdict

/-! ## Operands with further steps -/

namespace Operand

def followedBy (o : Operand) (more : List Step) : Operand :=
  { o with steps := o.steps ++ more }

variable {kind : Kind} {locale : String} {now : Instant} {record : Json} {env : Environment}
  {o : Operand} {more : List Step}

theorem ready_append {steps : List Step} {ready : List ReadyStep}
    (hsteps : steps.mapM Step.ready = .ok ready) (hmore : ∀ s ∈ more, s.Shifts) :
    (steps ++ more).mapM Step.ready = .ok (ready ++ more.map (⟨·, .none⟩)) := by
  have hrest : more.mapM Step.ready = .ok (more.map (⟨·, .none⟩)) := by
    induction more with
    | nil => rfl
    | cons s more ih =>
      rw [List.forall_mem_cons] at hmore
      rw [List.mapM_cons, hmore.1.ready_eq, ih hmore.2]
      rfl
  rw [List.mapM_append, hsteps, hrest]
  rfl

/-- The values that go into further steps, and what they have to do with the value found before. -/
theorem find_followedBy {v : Option Json} (hfind : o.find kind locale now record env = .ok v) :
    ∃ values : List Json,
      (o.isPlural = true → ∀ xs, v = some (.arr xs) → values = xs) ∧
      (o.isPlural = false → ∀ x i, v = some x → x.instant? = some i → values.head? = some x) ∧
      ∀ more, more ≠ [] → (∀ s ∈ more, s.Shifts) →
        (o.followedBy more).find kind locale now record env =
          .ok (if o.isPlural then some (.arr (values.map (Step.runAll kind locale more)))
            else (values.map (Step.runAll kind locale more)).head?) := by
  obtain ⟨origin, steps⟩ := o
  rw [find] at hfind
  rcases horigin : findOrigin kind locale now record env origin with f | found <;>
    rw [horigin] at hfind
  · cases hfind
  have hwith : ∀ ready, steps.mapM Step.ready = .ok ready → ∀ more, more ≠ [] →
      (∀ s ∈ more, s.Shifts) → (followedBy ⟨origin, steps⟩ more).find kind locale now record env =
        .ok (if isPlural ⟨origin, steps⟩ then
            some (.arr ((Pipeline.apply ⟨ready, kind, locale⟩ found).map
              (Step.runAll kind locale more)))
          else ((Pipeline.apply ⟨ready, kind, locale⟩ found).map
            (Step.runAll kind locale more)).head?) := by
    intro ready hsteps more hne hmore
    have hnonempty : (steps ++ more).isEmpty = false := by simp [hne]
    rw [followedBy, find, horigin, ready_append hsteps hmore, ← Pipeline.apply_append ready hmore]
    simp only [hnonempty]
    rfl
  cases steps with
  | nil =>
    -- what is found is the value itself, and the first step takes it apart
    cases hfind
    refine ⟨_, ?_, ?_, hwith [] rfl⟩
    · rintro - xs rfl
      rfl
    · rintro - x i rfl hx
      cases x with
      | str | num => rfl
      | null | bool | arr | obj => cases hx
  | cons first rest =>
    -- what is found are the values that come out of the steps, or the first of them
    rcases hsteps : (first :: rest).mapM Step.ready with f | ready
    · rw [hsteps] at hfind
      cases hfind
    · rw [hsteps] at hfind
      have hv : (if isPlural ⟨origin, first :: rest⟩ then
          some (.arr (Pipeline.apply ⟨ready, kind, locale⟩ found))
          else (Pipeline.apply ⟨ready, kind, locale⟩ found).head?) = v := Except.ok.inj hfind
      refine ⟨_, ?_, ?_, hwith ready hsteps⟩
      · rintro hplural xs rfl
        rw [if_pos hplural] at hv
        exact Json.arr.inj (Option.some.inj hv)
      · rintro hplural x i rfl -
        rwa [if_neg (Bool.eq_false_iff.mp hplural)] at hv

theorem followedBy_nil (o : Operand) : o.followedBy [] = o := by
  cases o
  rw [followedBy, List.append_nil]

theorem find_followedBy_list {xs : List Json} (hplural : o.isPlural = true)
    (hfind : o.find kind locale now record env = .ok (some (.arr xs)))
    (hmore : ∀ s ∈ more, s.Shifts) : (o.followedBy more).find kind locale now record env =
      .ok (some (.arr (xs.map (Step.runAll kind locale more)))) := by
  by_cases hne : more = []
  · rw [hne, followedBy_nil, hfind]
    exact congrArg (fun ys => Except.ok (some (Json.arr ys))) (List.map_id xs).symm
  · obtain ⟨values, hlist, -, hwith⟩ := find_followedBy hfind
    rw [hwith more hne hmore, hlist hplural xs rfl, if_pos hplural]

theorem find_followedBy_single {x : Json} {i : Instant} (hsingle : o.isPlural = false)
    (hfind : o.find kind locale now record env = .ok (some x)) (hx : x.instant? = some i)
    (hmore : ∀ s ∈ more, s.Shifts) : (o.followedBy more).find kind locale now record env =
      .ok (some (Step.runAll kind locale more x)) := by
  by_cases hne : more = []
  · rw [hne, followedBy_nil, hfind]
    rfl
  · obtain ⟨values, -, hhead, hwith⟩ := find_followedBy hfind
    rw [hwith more hne hmore, if_neg (Bool.eq_false_iff.mp hsingle), List.head?_map,
      hhead hsingle x i rfl hx]
    rfl

end Operand

/-! ## What comparisons of dates see -/

namespace Check

def datesOf (v : Option Json) : Option Instant × (Nat → Option Instant) :=
  (instantOf v, fun n => (v.getD .null).elements[n]?.bind Json.instant?)

theorem result_traceInstants (kind : Kind) (op : Operator) (env : Environment)
    {left left' right right' : Option Json} (hleft : datesOf left' = datesOf left)
    (hright : datesOf right' = datesOf right) :
    (traceInstants kind op env left' right').result =
      (traceInstants kind op env left right).result := by
  have hl : instantOf left' = instantOf left := congrArg Prod.fst hleft
  have hr : instantOf right' = instantOf right := congrArg Prod.fst hright
  simp only [traceInstants, hl, hr]

theorem result_traceExtent (kind : Kind) (op : Operator) (env : Environment)
    {left left' right right' : Option Json} (hleft : datesOf left' = datesOf left)
    (hright : datesOf right' = datesOf right) :
    (traceExtent kind op env left' right').result =
      (traceExtent kind op env left right).result := by
  have hl : instantOf left' = instantOf left := congrArg Prod.fst hleft
  have hr : ∀ n, (right'.getD .null).elements[n]?.bind Json.instant? =
      (right.getD .null).elements[n]?.bind Json.instant? :=
    fun n => congrFun (congrArg Prod.snd hright) n
  simp only [traceExtent, hl, hr]
  cases instantOf left <;> rfl

theorem datesOf_single {x : Json} {i : Instant} (hx : x.instant? = some i) :
    datesOf (some x) = (some i, fun n => if n = 0 then some i else none) := by
  have helements : x.elements = [x] := by
    cases x with
    | str | num => rfl
    | null | bool | arr | obj => cases hx
  refine Prod.ext hx (funext fun n => ?_)
  change x.elements[n]?.bind Json.instant? = _
  rw [helements]
  cases n with
  | zero => exact hx
  | succ n => rfl

theorem instantOf_eq (v : Option Json) : instantOf v = (v.getD .null).instant? := by
  cases v <;> rfl

theorem datesOf_list {xs ys : List Json} (h : ys.map Json.instant? = xs.map Json.instant?) :
    datesOf (some (.arr ys)) = datesOf (some (.arr xs)) := by
  refine Prod.ext rfl (funext fun n => ?_)
  have hjoin : ∀ o : Option Json, o.bind Json.instant? = (o.map Json.instant?).join := by
    intro o
    cases o <;> rfl
  change ys[n]?.bind Json.instant? = xs[n]?.bind Json.instant?
  rw [hjoin, hjoin, ← List.getElem?_map, ← List.getElem?_map, h]

end Check

/-! ## Operands that are moved by nothing -/

namespace Operand

section

variable (kind : Kind) (locale : String) (now : Instant) (record : Json) (env : Environment)

/-- An operand finds a date that can be written with four digits for its year; of a list that it
finds, this holds of every element that is a date. -/
def FindsDates (o : Operand) : Prop :=
  ∃ v, o.find kind locale now record env = .ok v ∧
    if o.isPlural then ∃ xs, v = some (.arr xs) ∧
      ∀ x ∈ xs, ∀ i, x.instant? = some i → i.InFourDigits
    else ∃ x i, v = some x ∧ x.instant? = some i ∧ i.InFourDigits

/-- The same operand, with idle steps on dates that it finds or that its bounds find; after those,
dates are at most moved further. -/
inductive Restamps : Option Operand → Option Operand → Prop
  | same (o : Option Operand) : Restamps o o
  | step {o : Operand} {s : Step} {more : List Step} (hs : s.Idle) (hmore : ∀ s ∈ more, s.Shifts)
      (hdates : o.FindsDates kind locale now record env) :
      Restamps (some (o.followedBy more)) (some (o.followedBy (s :: more)))
  | bounds {low low' high high' : Option Operand} {more : List Step} (hlow : Restamps low low')
      (hhigh : Restamps high high') (hmore : ∀ s ∈ more, s.Shifts) :
      Restamps (some ((of (.between low high)).followedBy more))
        (some ((of (.between low' high')).followedBy more))
  | trans {o o' o'' : Option Operand} (h : Restamps o o') (h' : Restamps o' o'') : Restamps o o''

end

variable {kind : Kind} {locale : String} {now : Instant} {record : Json} {env : Environment}

/-- An idle step leaves the dates that an operand finds as they are. -/
theorem dates_followedBy (hkind : kind.isTemporal = true) {o : Operand} {s : Step}
    {more : List Step} (hs : s.Idle) (hmore : ∀ s ∈ more, s.Shifts)
    (ho : o.FindsDates kind locale now record env) :
    ((o.followedBy (s :: more)).find kind locale now record env).map Check.datesOf =
      ((o.followedBy more).find kind locale now record env).map Check.datesOf := by
  obtain ⟨v, hfind, hv⟩ := ho
  have hall : ∀ t ∈ s :: more, t.Shifts := List.forall_mem_cons.mpr ⟨hs.shifts, hmore⟩
  cases hplural : o.isPlural <;> rw [hplural] at hv
  · obtain ⟨x, i, rfl, hi, hyear⟩ := hv
    rw [find_followedBy_single hplural hfind hi hall, find_followedBy_single hplural hfind hi hmore]
    have hdate : (s.action.apply kind locale .none x).instant? = x.instant? :=
      hs.instant?_apply hkind fun j hj => by
        cases hi.symm.trans hj
        exact hyear
    by_cases hne : more = []
    · rw [hne]
      exact congrArg Except.ok
        ((Check.datesOf_single (hdate.trans hi)).trans (Check.datesOf_single hi).symm)
    · exact congrArg (fun y => Except.ok (Check.datesOf (some y)))
        (Step.runAll_congr hkind hmore hne hdate)
  · obtain ⟨xs, rfl, hyears⟩ := hv
    rw [find_followedBy_list hplural hfind hall, find_followedBy_list hplural hfind hmore]
    refine congrArg Except.ok (Check.datesOf_list ?_)
    rw [List.map_map, List.map_map]
    exact List.map_congr_left fun x hx =>
      Step.instant?_runAll_congr hkind hmore (hs.instant?_apply hkind (hyears x hx))

theorem findBound_extent (low high : Option Operand) {more : List Step}
    (hmore : ∀ s ∈ more, s.Shifts) :
    findBound kind locale now record env (some ((of (.between low high)).followedBy more)) = (do
      let l ← findBound kind locale now record env low
      let h ← findBound kind locale now record env high
      return some (.arr ([l.getD .null, h.getD .null].map (Step.runAll kind locale more)))) := by
  rcases hl : findBound kind locale now record env low with f | l
  · rw [findBound, of, followedBy, find, findOrigin, hl]
    rfl
  rcases hh : findBound kind locale now record env high with f | h
  · rw [findBound, of, followedBy, find, findOrigin, hl, hh]
    rfl
  refine find_followedBy_list (o := of (.between low high)) rfl ?_ hmore
  rw [of, find, findOrigin, hl, hh]
  rfl

theorem Restamps.dates (hkind : kind.isTemporal = true) {o o' : Option Operand}
    (h : Restamps kind locale now record env o o') :
    (findBound kind locale now record env o').map Check.datesOf =
      (findBound kind locale now record env o).map Check.datesOf := by
  induction h with
  | same o => rfl
  | step hs hmore hdates => exact dates_followedBy hkind hs hmore hdates
  | trans _ _ ih ih' => exact ih'.trans ih
  | @bounds low low' high high' more _ _ hmore ihlow ihhigh =>
    rw [findBound_extent low high hmore, findBound_extent low' high' hmore]
    refine map_bind_congr ihlow fun l' l hl => ?_
    refine map_bind_congr ihhigh fun h' h hh => ?_
    refine congrArg Except.ok (Check.datesOf_list ?_)
    have hmoved : ∀ {v v' : Option Json}, Check.datesOf v' = Check.datesOf v →
        (Step.runAll kind locale more (v'.getD .null)).instant? =
          (Step.runAll kind locale more (v.getD .null)).instant? := by
      intro v v' hv
      have hinstant := congrArg Prod.fst hv
      rw [Check.datesOf, Check.datesOf, Check.instantOf_eq, Check.instantOf_eq] at hinstant
      exact Step.instant?_runAll_congr hkind hmore hinstant
    exact congrArg₂ (fun i j => [i, j]) (hmoved hl) (hmoved hh)

theorem Restamps.isNone_eq {o o' : Option Operand} (h : Restamps kind locale now record env o o') :
    o'.isNone = o.isNone := by
  induction h with
  | same | step | bounds => rfl
  | trans _ _ ih ih' => exact ih'.trans ih

theorem usable_followedBy {o : Operand} {more : List Step} (hmore : ∀ s ∈ more, s.Shifts) :
    (o.followedBy more).Usable ↔ o.Usable := by
  obtain ⟨origin, steps⟩ := o
  have huseful : ∀ s ∈ more, s.action.Usable := fun s hs => by
    obtain ⟨-, amount, sign, hmoves⟩ := hmore s hs
    exact (Action.tool_isOk_iff _).mp ⟨.none, hmoves.tool_eq⟩
  rw [followedBy, Usable, Usable, List.forall_mem_append, and_iff_left huseful]

theorem Restamps.usable {o o' : Option Operand} (h : Restamps kind locale now record env o o') :
    UsableBound o' ↔ UsableBound o := by
  induction h with
  | same => rfl
  | step hs hmore _ =>
    exact (usable_followedBy (List.forall_mem_cons.mpr ⟨hs.shifts, hmore⟩)).trans
      (usable_followedBy hmore).symm
  | bounds _ _ hmore ihlow ihhigh =>
    rw [UsableBound, UsableBound, usable_followedBy hmore, usable_followedBy hmore]
    exact and_congr (and_congr ihlow ihhigh) Iff.rfl
  | trans _ _ ih ih' => exact ih'.trans ih

end Operand

namespace Rule

variable {locale : String} {now : Instant} {record : Json} {env : Environment}

/-- Idle steps do not change what a comparison of dates comes to. -/
theorem result_interpretComparison {as : Comparand} (hkind : as.kind.isTemporal = true)
    (op : Operator) {left left' right right' : Option Operand}
    (hleft : Operand.Restamps as.kind locale now record env left left')
    (hright : Operand.Restamps as.kind locale now record env right right') :
    (interpretComparison locale now op as left' right' record env).map (·.result) =
      (interpretComparison locale now op as left right record env).map (·.result) := by
  unfold interpretComparison
  rw [hleft.isNone_eq, hright.isNone_eq]
  split
  · rfl
  refine map_bind_congr (hleft.dates hkind) fun l' l hl => ?_
  refine map_bind_congr (hright.dates hkind) fun r' r hr => ?_
  have hresult : (if op.isTemporalExtent then Check.traceExtent as.kind op env l' r'
        else Check.traceInstants as.kind op env l' r').result =
      (if op.isTemporalExtent then Check.traceExtent as.kind op env l r
        else Check.traceInstants as.kind op env l r).result := by
    split
    · exact Check.result_traceExtent as.kind op env hl hr
    · exact Check.result_traceInstants as.kind op env hl hr
  cases as with
  | values => cases hkind
  | dates => exact congrArg Except.ok hresult
  | times => exact congrArg Except.ok hresult

def withOperands (r : Rule) (as : Comparand) (left right : Option Operand) : Rule :=
  { r with test := .compare as left right, memo := none }

section

variable {r : Rule} {as : Comparand} {left left' right right' : Option Operand} {e : Environment}
  {tongue : ScopeId → String}

theorem keeps_withOperands {P : Rule → Memo → Prop} (h : Keeps P r.nodes) :
    Keeps P (r.withOperands as left right).nodes :=
  keeps_nodes.mpr ⟨nofun, nofun, (keeps_nodes.mp h).2.2⟩

theorem audit_withOperands (haudit : r.audit = .ok ()) (htest : r.test = .compare as left right)
    (hkind : as.kind.isTemporal = true)
    (hleft : Operand.Restamps as.kind locale now record e left left')
    (hright : Operand.Restamps as.kind locale now record e right right') :
    (r.withOperands as left' right').audit = .ok () := by
  rw [audit_eq_ok_iff, nodes_eq, List.forall_mem_cons] at haudit ⊢
  obtain ⟨⟨hlocals, husable⟩, hbelow⟩ := haudit
  refine ⟨⟨hlocals, ?_⟩, fun n hn => hbelow n (List.mem_append_right _ hn)⟩
  rw [htest] at husable
  have hgiven : ∀ {o o' : Option Operand}, Operand.Restamps as.kind locale now record e o o' →
      (o' = none ↔ o = none) := fun h => by
    rw [← Option.isNone_iff_eq_none, ← Option.isNone_iff_eq_none, h.isNone_eq]
  refine husable.imp ?_ fun h => ?_
  · exact And.imp (hgiven hleft).mpr (hgiven hright).mpr
  · obtain ⟨l, rfl, hl⟩ := h.leftUsable
    obtain ⟨l', rfl⟩ : ∃ l', left' = some l' :=
      Option.ne_none_iff_exists'.mp fun hnone => by cases (hgiven hleft).mp hnone
    exact
      { operator := h.operator
        leftUsable := ⟨l', rfl, hleft.usable.mpr hl⟩
        rightGiven := fun hop hnone => h.rightGiven hop ((hgiven hright).mp hnone)
        rightUsable := hright.usable.mpr h.rightUsable
        pattern := fun has => by
          rw [has] at hkind
          cases hkind }

theorem result_interpret (he : extend r.kind (tongue r.scope) now record env r.locals = .ok e) :
    (r.interpret tongue now record env).map (·.result) = (do
      let traces ← interpretAll tongue now r.dependencies record e
      if traces.all (·.result) then
        (interpretTest tongue now r.operator r.scope r.test record e).map (·.result)
      else .ok true) := by
  cases hempty : r.dependencies.isEmpty with
  | true =>
    have hnil := List.isEmpty_iff.mp hempty
    rw [interpret_ungated hnil, he, hnil]
    rfl
  | false =>
    rw [interpret_gated hempty, he]
    change (interpretAll tongue now r.dependencies record e >>= _).map _ = _
    cases interpretAll tongue now r.dependencies record e with
    | error f => rfl
    | ok traces =>
      change Except.map _ (Except.map _ (if _ then _ else _)) = if _ then _ else _
      split
      · cases interpretTest tongue now r.operator r.scope r.test record e <;> rfl
      · rfl

theorem result_interpret_withOperands (htest : r.test = .compare as left right)
    (hkind : as.kind.isTemporal = true)
    (he : extend as.kind (tongue r.scope) now record env r.locals = .ok e)
    (hleft : Operand.Restamps as.kind (tongue r.scope) now record e left left')
    (hright : Operand.Restamps as.kind (tongue r.scope) now record e right right') :
    ((r.withOperands as left' right').interpret tongue now record env).map (·.result) =
      (r.interpret tongue now record env).map (·.result) := by
  have he' : extend (r.withOperands as left' right').kind (tongue r.scope) now record env
      r.locals = .ok e := by
    rw [kind, withOperands, Test.kind_compare]
    exact he
  rw [← Test.kind_compare, ← htest] at he
  have hcompared : (interpretTest tongue now r.operator r.scope (.compare as left' right')
        record e).map (·.result) =
      (interpretTest tongue now r.operator r.scope r.test record e).map (·.result) := by
    rw [htest, interpretTest, interpretTest]
    exact result_interpretComparison hkind r.operator hleft hright
  rw [result_interpret he', result_interpret he]
  refine bind_congr fun traces => ?_
  change (if _ then (interpretTest tongue now r.operator r.scope (.compare as left' right')
    record e).map (fun t : Trace => t.result) else _) = _
  rw [hcompared]

/-- Idle steps on dates do not change the result of a rule that compares dates, nor whether it has
one. -/
theorem result_evaluate {s : Session} (hr : Warmed s.tongue r) (hs : s.Reached)
    (hcompiles : ∃ c, (r.compile false s).1.1 = .ok c) (htest : r.test = .compare as left right)
    (hkind : as.kind.isTemporal = true)
    (he : extend as.kind (s.tongue r.scope) now record env r.locals = .ok e)
    (hleft : Operand.Restamps as.kind (s.tongue r.scope) now record e left left')
    (hright : Operand.Restamps as.kind (s.tongue r.scope) now record e right right') :
    ((r.withOperands as left' right').evaluate now record env s).1.1.map (·.result) =
      (r.evaluate now record env s).1.1.map (·.result) := by
  have haudit : r.audit = .ok () :=
    (compile_settles hs.sound hr.keeps false).isOk_iff.mp hcompiles
  have haudit' := audit_withOperands haudit htest hkind hleft hright
  have hmeans := (evaluate_ends haudit hr.keeps ⟨now, record, env⟩ s hs.sound rfl).2.1
  have hmeans' :=
    (evaluate_ends haudit' (keeps_withOperands hr.keeps) ⟨now, record, env⟩ s hs.sound rfl).2.1
  exact (congrArg _ hmeans').trans
    ((result_interpret_withOperands htest hkind he hleft hright).trans (congrArg _ hmeans).symm)

end

/-! ## Dates that are written -/

/-- What is read as a date is written as that date, and read back as the same instant exactly if its
year has four digits in UTC.  So idle steps on such dates do not change the result of a rule that
compares dates.  What a step writes there, unless it is null, is read as the date that the step has
moved to, exactly if the year of that one has four digits. -/
theorem dates_stay_dates (as : Comparand) (hkind : as.kind.isTemporal = true) :
    (∀ (v : Json) (i : Instant), v.instant? = some i →
      (Json.ofInstant i).instant? = if i.InFourDigits then some i else none) ∧
    (∀ (r : Rule) (s : Session) (left left' right right' : Option Operand) (now : Instant)
      (record : Json) (env e : Environment),
      Warmed s.tongue r → s.Reached → (∃ c, (r.compile false s).1.1 = .ok c) →
      r.test = .compare as left right →
      extend as.kind (s.tongue r.scope) now record env r.locals = .ok e →
      Operand.Restamps as.kind (s.tongue r.scope) now record e left left' →
      Operand.Restamps as.kind (s.tongue r.scope) now record e right right' →
      ((r.withOperands as left' right').evaluate now record env s).1.1.map (·.result) =
        (r.evaluate now record env s).1.1.map (·.result)) ∧
    ∀ (locale : String) (a : Action) (amount : Json) (sign : Int) (tool : Tool) (v : Json),
      a.Moves amount sign → a.apply as.kind locale tool v ≠ .null →
      ∃ i delta j, v.instant? = some i ∧ Action.amountOf amount = some delta ∧
        Calendar.shift i delta sign = some j ∧ a.apply as.kind locale tool v = .ofInstant j ∧
        (a.apply as.kind locale tool v).instant? = if j.InFourDigits then some j else none := by
  refine ⟨fun v i h => Json.instant?_ofInstant h, ?_, ?_⟩
  · intro r s left left' right right' now record env e hr hs hcompiles htest he
    exact result_evaluate hr hs hcompiles htest hkind he
  · intro locale a amount sign tool v hmoves hresult
    obtain ⟨i, delta, j, hi, hdelta, hj, hwritten⟩ := hmoves.shifts hkind hresult
    have htimed : j.Timed := Calendar.timed_shift (Json.timed_instant? hi) hj
    refine ⟨i, delta, j, hi, hdelta, hj, hwritten, ?_⟩
    rw [hwritten]
    exact Calendar.read_write htimed

/-- The first instant of 1970 is read from zero milliseconds, written and read back; compared with
itself it stays equal through an idle step, and a minute and a half before it is still a date. -/
theorem dates_stay_dates_epoch :
    let zero := Operand.literal (.ofInt 0)
    let r := of ⟨0⟩ (.compare .times (some zero) (some zero)) .equal
    let s := (({} : Session).openScope (.bounded (some 0) "de")).2
    let idle : Step := ⟨.add (.ofInt 0), false⟩
    (Json.ofInt 0).instant? = some default ∧ (Json.ofInstant default).instant? = some default ∧
      ((r.withOperands .times (some (zero.followedBy [idle])) (some zero)).evaluate
          default .null [] s).1.1.map (·.result) =
        (r.evaluate default .null [] s).1.1.map (·.result) ∧
      ∃ j, (Action.subtract (.ofInt 90)).apply .time "de" .none (.ofInt 0) = .ofInstant j ∧
        ((Action.subtract (.ofInt 90)).apply .time "de" .none (.ofInt 0)).instant? = some j := by
  obtain ⟨hread, hevaluate, hwrite⟩ := dates_stay_dates .times rfl
  intro zero r s idle
  have hzero : (Json.ofInt 0).instant? = some default := by decide +kernel
  have hyear : (default : Instant).InFourDigits := by decide
  have hearlier : (Calendar.shift default (.ofInt 90) (-1)).all (·.InFourDigits) = true := by
    decide
  have hsome :
      ((Action.subtract (.ofInt 90)).apply .time "de" .none (.ofInt 0)).isNull = false := by
    decide +kernel
  have hok : (r.compile false s).1.1.isOk = true := by
    decide
  refine ⟨hzero, (hread _ _ hzero).trans (if_pos hyear), ?_, ?_⟩
  · have hcold : ∀ n ∈ r.nodes, n.memo = none := fun n hn => by rw [List.mem_singleton.mp hn]
    have hidle : idle.Idle := ⟨rfl, .ofInt 0, 1, .add _, _, rfl, .inl (by decide)⟩
    have hdates : zero.FindsDates .time (s.tongue r.scope) default .null [] :=
      ⟨some (.ofInt 0), rfl, .ofInt 0, default, rfl, hzero, hyear⟩
    have hsteps : ∀ t ∈ ([] : List Step), t.Shifts := nofun
    exact hevaluate r s _ _ _ _ default .null [] [] (.cold hcold)
      (Session.reached_empty.openScope (some 0) "de") (exists_of_isOk hok) rfl rfl
      (.step (o := zero) hidle hsteps hdates) (.same _)
  · obtain ⟨i, delta, j, hi, hdelta, hj, hwritten, hagain⟩ := hwrite "de" _ _ (-1) .none
      (.ofInt 0) (.subtract (.ofInt 90)) fun h => nomatch hsome.symm.trans (congrArg Json.isNull h)
    cases hzero.symm.trans hi
    cases hdelta
    rw [show Calendar.shift default (.ofInt 90) (-1) = some j from hj, Option.all_some,
      decide_eq_true_iff] at hearlier
    exact ⟨j, hwritten, hagain.trans (if_pos hearlier)⟩

/-- The first instant after the year 9999 is read from its milliseconds, but what is written for it
is not read: an idle step makes a time differ from itself. -/
theorem date_lost_after_9999 :
    let first := Operand.literal (.ofInt 253402300800000)
    let r := of ⟨0⟩ (.compare .times (some first) (some first)) .equal
    let s := (({} : Session).openScope (.bounded (some 0) "de")).2
    let idle : Step := ⟨.add (.ofInt 0), false⟩
    (∃ i, (Json.ofInt 253402300800000).instant? = some i ∧
      Json.ofInstant i = .str "+10000-01-01T00:00:00Z" ∧ (Json.ofInstant i).instant? = none) ∧
      (r.evaluate default .null [] s).1.1.toOption.map (·.result) = some true ∧
      ((r.withOperands .times (some (first.followedBy [idle])) (some first)).evaluate
          default .null [] s).1.1.toOption.map (·.result) = some false := by
  intro first r s idle
  refine ⟨?_, by decide, by decide +kernel⟩
  have hread : (Json.ofInt 253402300800000).instant?.map Calendar.write =
      some "+10000-01-01T00:00:00Z" := by
    decide
  obtain ⟨i, hi, hwritten⟩ := Option.map_eq_some_iff.mp hread
  refine ⟨i, hi, congrArg Json.str hwritten, ?_⟩
  rw [Json.ofInstant, hwritten]
  decide

end Rule

end Verdict
