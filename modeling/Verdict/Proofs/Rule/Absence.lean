import Verdict.Proofs.Rule.Faults

/-!
# Missing values

A value that is missing or null has nothing to go through steps, so no step makes a value of it.
And a comparison does not hold where a side is missing or null, whatever its operator, and whatever
the other side is.
-/

namespace Verdict

theorem Pipeline.apply_of_isAbsent {v : Option Json} (h : Json.isAbsent v = true) (p : Pipeline) :
    p.apply v = [] := by
  cases v with
  | none => rfl
  | some v =>
    cases v with
    | null => rfl
    | bool | num | str | arr | obj => cases h

namespace Operand

variable (kind : Kind) (locale : String) (now : Instant) (record : Json) (env : Environment)

/-- There is no operand, or what it finds before its steps is missing or null. -/
def StartsAbsent : Option Operand → Prop
  | none => True
  | some o => ∃ v, findOrigin kind locale now record env o.origin = .ok v ∧ Json.isAbsent v = true

variable {kind locale now record env}

theorem not_isAbsent_of_isPlural {o : Operand} {v : Option Json} (hplural : o.isPlural = true)
    (hv : findOrigin kind locale now record env o.origin = .ok v) : Json.isAbsent v = false := by
  obtain ⟨origin, steps⟩ := o
  cases origin with
  | record | literal | day | env => cases hplural
  | path text every =>
    obtain rfl : every = true := hplural
    obtain ⟨p, -, hp⟩ := bind_eq_ok hv
    cases hp
    rfl
  | range inner =>
    rw [findOrigin] at hv
    obtain ⟨w, -, hw⟩ := bind_eq_ok hv
    cases hw
    rw [Getter.bounds]
    split <;> rfl
  | between low high =>
    rw [findOrigin] at hv
    obtain ⟨l, -, hv⟩ := bind_eq_ok hv
    obtain ⟨h, -, hw⟩ := bind_eq_ok hv
    cases hw
    rfl

/-- Steps leave what is missing or null missing or null. -/
theorem find_of_startsAbsent {o : Operand} (husable : o.Usable)
    (h : StartsAbsent kind locale now record env (some o)) :
    ∃ v, o.find kind locale now record env = .ok v ∧ Json.isAbsent v = true := by
  obtain ⟨v, hv, habsent⟩ := h
  have hsingle : o.isPlural = false := by
    by_contra hplural
    rw [Bool.not_eq_false] at hplural
    cases habsent.symm.trans (not_isAbsent_of_isPlural hplural hv)
  obtain ⟨origin, steps⟩ := o
  obtain ⟨ready, hready⟩ := (Pipeline.ready_isOk_iff steps).mpr husable.2
  rw [find, hv, hready, hsingle]
  cases steps with
  | nil => exact ⟨v, rfl, habsent⟩
  | cons s rest =>
    refine ⟨none, ?_, rfl⟩
    change Except.ok (Pipeline.apply ⟨ready, kind, locale⟩ v).head? = _
    rw [Pipeline.apply_of_isAbsent habsent]
    rfl

variable (kind locale now record env) in
theorem findBound_lacks {o : Option Operand} (husable : UsableBound o) :
    ∃ v, findBound kind locale now record env o = .ok v ∧
      (StartsAbsent kind locale now record env o → Json.isAbsent v = true) := by
  cases o with
  | none => exact ⟨none, rfl, fun _ => rfl⟩
  | some o =>
    by_cases h : StartsAbsent kind locale now record env (some o)
    · obtain ⟨v, hv, habsent⟩ := find_of_startsAbsent husable h
      exact ⟨v, hv, fun _ => habsent⟩
    · obtain ⟨v, hv⟩ := o.find_isOk kind locale now record env husable
      exact ⟨v, hv, fun habsent => absurd habsent h⟩

end Operand

/-- The trace of a comparison that does not hold.  Each side that is said to be missing is missing
or null. -/
structure Trace.Lacks (t : Trace) (left right : Prop) : Prop where
  result : t.result = false
  left : left → Json.isAbsent t.left = true
  right : right → Json.isAbsent t.right = true

namespace Rule

theorem testFound_of_isAbsent {op : Operator} {text : String} {u v : Option Json}
    (h : Json.isAbsent u = true ∨ Json.isAbsent v = true) : testFound op text u v = .ok false := by
  rcases u with _ | a
  · rfl
  rcases v with _ | b
  · rfl
  have hnull : (a.isNull || b.isNull) = true := Bool.or_eq_true_iff.mpr h
  rw [testFound, if_pos hnull]
  rfl

/-- Trees of the essence of a comparison without dependencies differ from it in scope, description
and kept check only. -/
theorem eq_of_essence {t r : Rule} {as : Comparand} {left right : Option Operand}
    (h : t.essence = r.essence) (htest : r.test = .compare as left right)
    (halone : r.dependencies = []) :
    t = ⟨.compare as left right, r.operator, [], r.locals, t.description, t.scope, t.memo⟩ := by
  obtain ⟨test, op, dependencies, locals, description, scope, memo⟩ := r
  obtain ⟨test', op', dependencies', locals', description', scope', memo'⟩ := t
  cases htest
  cases halone
  rw [essence, essence, bare, bare, Rule.mk.injEq] at h
  obtain ⟨hbelow, rfl, hdepend, rfl, -⟩ := h
  rw [bareAll_eq_map, bareAll, List.map_eq_nil_iff] at hdepend
  cases hdepend
  cases test' <;> cases hbelow
  rfl

section Compare

variable {locale : String} {now : Instant} {record : Json} {env e : Environment} {op : Operator}
  {left right : Option Operand}

/-- A comparison does not hold if one of its sides starts missing or null. -/
theorem interpretComparison_lacks (hgiven : left ≠ none) (hleft : Operand.UsableBound left)
    (hright : Operand.UsableBound right) :
    let absent := Operand.StartsAbsent .primitive locale now record e
    absent left ∨ absent right → ∃ t,
      interpretComparison locale now op .values left right record e = .ok t ∧
        t.Lacks (absent left) (absent right) := by
  intro absent h
  obtain ⟨u, hu, habsentLeft⟩ := Operand.findBound_lacks .primitive locale now record e hleft
  obtain ⟨v, hv, habsentRight⟩ := Operand.findBound_lacks .primitive locale now record e hright
  refine ⟨{ Trace.of .primitive op e false with left := u, right := v }, ?_, rfl, habsentLeft,
    habsentRight⟩
  have htest : testFound op (rightText right) u v = .ok false :=
    testFound_of_isAbsent (h.imp habsentLeft habsentRight)
  rw [interpretComparison, if_neg (by simp [hgiven])]
  simp only [Comparand.kind, hu, hv]
  change (testFound op (rightText right) u v >>= _) = _
  rw [htest]
  rfl

end Compare

/-- In a compiled comparison of values without dependencies, a side without an operand, and one of
which the value before all steps is missing or null, stays missing or null through its steps.  Then
the comparison does not hold, and it does not fail, whatever its operator and its other side are. -/
theorem absence_stays {r : Rule} {s : Session} {force : Bool} {c : Check} {left : Operand}
    {right : Option Operand} (hr : Reliable s.tongue r) (hs : s.Reached)
    (hc : (r.compile force s).1.1 = .ok c) (htest : r.test = .compare .values (some left) right)
    (halone : r.dependencies = []) :
    ∃ locale, (Warmed s.tongue r → locale = s.tongue r.scope) ∧
      ∀ (u : Session) (now : Instant) (record : Json) (env : Environment), u.Reached →
        ∃ e, extend .primitive locale now record env r.locals = .ok e ∧
          let absent := Operand.StartsAbsent .primitive locale now record e
          absent (some left) ∨ absent right → ∃ trace, (c.run now record env u).1 = .ok trace ∧
            trace.Lacks (absent (some left)) (absent right) := by
  obtain ⟨haudit, t, hessence, hsame, hsays⟩ := hr.says_like hs.sound hc
  refine ⟨s.tongue t.scope, fun hwarmed => by rw [hsame hwarmed], fun u now record env hu => ?_⟩
  have hself := (audit_eq_ok_iff r).mp haudit r (mem_nodes_self r)
  have hextend : ∃ e, extend .primitive (s.tongue t.scope) now record env r.locals = .ok e :=
    extend_isOk hself.locals
  obtain ⟨e, he⟩ := hextend
  refine ⟨e, he, fun h => ?_⟩
  have husable := hself.test
  rw [htest] at husable
  have hsides := husable.resolve_left fun hnone => nomatch hnone.1
  obtain ⟨l, hl, hleft⟩ := hsides.leftUsable
  cases hl
  have hgiven : some left ≠ none := nofun
  obtain ⟨trace, htrace, hlacks⟩ := interpretComparison_lacks hgiven hleft hsides.rightUsable h
  obtain ⟨v, hrun, -⟩ := hsays now record env u hu.sound
  refine ⟨trace, ?_, hlacks⟩
  rw [hrun, eq_of_essence hessence htest halone, interpret_ungated rfl]
  change (extend .primitive (s.tongue t.scope) now record env r.locals >>= _) = _
  rw [he]
  exact htrace

/-- A name that is not there stays so when it is counted, and then it does not matter that it is to
be matched against what is no pattern. -/
theorem absence_stays_counted :
    let name := ((Operand.path "name").withStep ⟨.number, false⟩).withStep ⟨.length, true⟩
    let r := of ⟨0⟩ (.compare .values (some name) (some (.of (.env "pattern")))) .matching
    let s : Session := {}
    Reliable s.tongue r ∧ s.Reached ∧ r.dependencies = [] ∧
      ∃ c, (r.compile false s).1.1 = .ok c ∧ ∀ (u : Session) (now : Instant), u.Reached →
        ∃ trace, (c.run now (.obj []) [("pattern", .str "(")] u).1 = .ok trace ∧
          trace.result = false ∧ Json.isAbsent trace.left = true := by
  intro name r s
  have hr : Reliable s.tongue r := .warmed (.cold fun n hn => by rw [List.mem_singleton.mp hn])
  have hs : s.Reached := Session.reached_empty
  have hcompiles : ∃ c, (r.compile false s).1.1 = .ok c := exists_of_isOk (by decide +kernel)
  obtain ⟨c, hc⟩ := hcompiles
  refine ⟨hr, hs, rfl, c, hc, fun u now hu => ?_⟩
  obtain ⟨locale, -, hrun⟩ := absence_stays hr hs hc rfl rfl
  obtain ⟨e, -, hlacks⟩ := hrun u now (.obj []) [("pattern", .str "(")] hu
  have hfind : ((Path.compile "name").map fun p => Json.isAbsent (p.first? (.obj []))).toOption =
      some true := by decide +kernel
  have habsent : Operand.StartsAbsent .primitive locale now (.obj []) e (some name) := by
    cases hpath : Path.compile "name" with
    | error f =>
      rw [hpath] at hfind
      cases hfind
    | ok p =>
      rw [hpath] at hfind
      refine ⟨p.first? (.obj []), ?_, Option.some.inj hfind⟩
      change (Path.compile "name" >>= _) = _
      rw [hpath]
      rfl
  obtain ⟨trace, htrace, hlacks⟩ := hlacks (.inl habsent)
  exact ⟨trace, htrace, hlacks.result, hlacks.left habsent⟩

end Rule

end Verdict
