import Verdict.Proofs.Json.Members
import Verdict.Proofs.Rule.Evaluation
import Verdict.Proofs.Rule.Plain
import Verdict.Proofs.RuleBook.Catalogue

/-!
# Runs of rule books

Whatever has been asked of a rule book, it answers like the catalogue that the operations come to.
One operation leads from a book that renders a catalogue to one that renders the catalogue after the
operation, and by induction so does a run.
-/

namespace Verdict.RuleBook

/-! ## Stored rules -/

variable {tongue : ScopeId → String} {scope : ScopeId} {blank : Session} {b : RuleBook}
  {m : Catalogue} {id : String} {d : Definition} {r : Rule}

/-- A stored rule is the one that a definition describes, and it keeps its check. -/
structure Stands (tongue : ScopeId → String) (scope : ScopeId) (d : Definition) (r : Rule) :
    Prop where
  made : Rule.ofDefinition scope d = .ok (r.withScope scope)
  audit : (r.withScope scope).audit = .ok ()
  kept : ∃ c, r.memo = some ⟨r.digest, c⟩ ∧ Rule.Says tongue c (r.withScope scope)

/-- A rule book renders a catalogue. -/
structure Renders (tongue : ScopeId → String) (scope : ScopeId) (b : RuleBook) (m : Catalogue) :
    Prop where
  inScope : b.scope = scope
  sorted : Members.Sorted b.rules
  bound : ∀ id, Option.Rel (Stands tongue scope) (m id) (b.find? id)

theorem renders_empty (scope : ScopeId) : Renders tongue scope ⟨scope, []⟩ fun _ => none :=
  ⟨rfl, .nil, fun _ => .none⟩

theorem Renders.find_bound (h : Renders tongue scope b m) (hd : m id = some d) :
    ∃ r, b.find? id = some r ∧ Stands tongue scope d r := by
  have hbound := h.bound id
  rw [hd] at hbound
  generalize b.find? id = found at hbound ⊢
  cases hbound with
  | some hr => exact ⟨_, rfl, hr⟩

theorem Renders.find_unbound (h : Renders tongue scope b m) (hd : m id = none) :
    b.find? id = none := by
  have hbound := h.bound id
  rw [hd] at hbound
  generalize b.find? id = found at hbound ⊢
  cases hbound
  rfl

theorem Renders.contains (h : Renders tongue scope b m) (id : String) :
    b.contains id = (m id).isSome := by
  rw [RuleBook.contains]
  cases hm : m id with
  | none => rw [h.find_unbound hm]; rfl
  | some d =>
    obtain ⟨r, hr, -⟩ := h.find_bound hm
    rw [hr]
    rfl

theorem Renders.lists (h : Renders tongue scope b m) : m.Lists b.ids := by
  refine ⟨h.sorted.nodup, fun id => ?_⟩
  rw [ids, Members.mem_names_iff, ← h.contains]
  rfl

/-- One name is bound anew, or to nothing, and all others are bound to what they were. -/
theorem Renders.update {rules : Members Rule} {o : Option Definition}
    (h : Renders tongue scope b m) (hsorted : Members.Sorted rules)
    (hself : Option.Rel (Stands tongue scope) o (Members.value? id rules))
    (hother : ∀ id', id' ≠ id → Members.value? id' rules = b.find? id') :
    Renders tongue scope { b with rules } (Function.update m id o) where
  inScope := h.inScope
  sorted := hsorted
  bound id' := by
    by_cases hid : id' = id
    · subst hid
      rw [Function.update_self]
      exact hself
    · rw [Function.update_of_ne hid, find?, hother id' hid]
      exact h.bound id'

theorem find?_put_of_ne {id' : String} (hid : id' ≠ id) :
    find? { b with rules := Members.put id r b.rules } id' = b.find? id' := by
  rw [find?, Members.value?_put, if_neg (Ne.symm hid), find?]

theorem find?_remove_of_ne (hb : Members.Sorted b.rules) {id' : String} (hid : id' ≠ id) :
    find? { b with rules := Members.remove id b.rules } id' = b.find? id' := by
  rw [find?, Members.value?_remove hb, if_neg (Ne.symm hid), find?]

theorem Renders.put (h : Renders tongue scope b m) (id : String) (hr : Stands tongue scope d r) :
    Renders tongue scope { b with rules := Members.put id r b.rules } (m.bind id d) := by
  refine h.update h.sorted.put ?_ fun _ => find?_put_of_ne
  rw [Members.value?_put, if_pos rfl]
  exact .some hr

theorem Renders.remove (h : Renders tongue scope b m) (id : String) :
    Renders tongue scope { b with rules := Members.remove id b.rules }
      (Function.update m id none) := by
  refine h.update h.sorted.remove ?_ fun _ => find?_remove_of_ne h.sorted
  rw [Members.value?_remove h.sorted, if_pos rfl]
  exact .none

/-! ## Loading -/

theorem load_apply (b : RuleBook) (id : String) (d : Definition) (s : Session) :
    b.load id d s = match Rule.ofDefinition b.scope d with
      | .error f => (.error f, s)
      | .ok r => match r.compile false s with
        | ((.error f, _), s) => (.error f, s)
        | ((.ok _, r), s) => (.ok { b with rules := Members.put id r b.rules }, s) := by
  rw [load, Work.bind_apply]
  cases Rule.ofDefinition b.scope d <;> rfl

theorem loadRule_eq (b : RuleBook) (id : String) (r : Rule) :
    b.loadRule id r = b.load id r.toDefinition := by
  funext s
  rw [load_apply, Rule.ofDefinition_toDefinition]
  rfl

theorem cold_of_ofDefinition (hr : Rule.ofDefinition scope d = .ok r) :
    ∀ n ∈ r.nodes, n.memo = none := by
  rw [← Rule.withScope_ofDefinition scope d hr]
  exact fun n hn => (Rule.mem_nodes_withScope scope r n hn).2

/-- A rule that compiles is stored as its definition describes it. -/
theorem compile_stands (hr : Rule.ofDefinition scope d = .ok r) :
    Work.Ends tongue (r.compile false) fun out =>
      Work.Settles r.audit (fun _ => Stands tongue scope d out.2) out.1 := by
  intro s hs ht
  obtain ⟨hst, hsettles, -, -⟩ := Rule.compile_ends false r (fun n _ => Rule.trusts_faithful n)
    (Rule.keeps_cold (cold_of_ofDefinition hr)) s hs ht
  refine ⟨hst, ?_⟩
  have hmoved : (r.compile false s).1.2.withScope scope = r :=
    (Rule.withScope_compile scope false r s).trans (Rule.withScope_ofDefinition scope d hr)
  have hdigest : (r.compile false s).1.2.digest = r.digest := by
    rw [← Rule.digest_withScope scope, hmoved]
  change Work.Settles r.audit (fun _ => Stands tongue scope d (r.compile false s).1.2)
    (r.compile false s).1.1
  cases hcompile : (r.compile false s).1.1 with
  | error f =>
    rw [hcompile] at hsettles
    exact hsettles
  | ok c =>
    rw [hcompile] at hsettles
    obtain ⟨haudit, hsays⟩ := hsettles
    have hmemo := Rule.memo_compile hcompile
    rw [← hdigest] at hmemo
    refine ⟨haudit, ?_, ?_, c, hmemo, ?_⟩ <;> rw [hmoved]
    · exact hr
    · exact haudit
    · exact hsays

section Blank

variable (hblank : blank.Sound)

include hblank

theorem admission_eq (hr : Rule.ofDefinition scope d = .ok r) :
    admission blank scope d = r.audit := by
  have hsettles :=
    Rule.compile_settles hblank (Rule.keeps_cold (cold_of_ofDefinition hr)) false
  rw [admission, hr]
  change (r.compile false blank).1.1.map _ = _
  cases hcompile : (r.compile false blank).1.1 <;> rw [hcompile] at hsettles
  · exact hsettles.symm
  · exact hsettles.1.symm

/-- A definition is entered exactly if it is admitted. -/
theorem load_makes (hb : b.scope = scope) (id : String) (d : Definition) :
    Work.Makes tongue (b.load id d) (admission blank scope d) fun b' =>
      ∃ r, Stands tongue scope d r ∧ b' = { b with rules := Members.put id r b.rules } := by
  intro s hs ht
  rw [load_apply, hb]
  cases hd : Rule.ofDefinition scope d with
  | error f =>
    refine ⟨.refl hs, ?_⟩
    change admission blank scope d = .error f
    rw [admission, hd]
    rfl
  | ok r =>
    have hstands : Work.Ends tongue (r.compile false) _ := compile_stands hd
    obtain ⟨hst, hsettles⟩ := hstands s hs ht
    rw [admission_eq hblank hd]
    dsimp only
    rcases hrun : r.compile false s with ⟨⟨f | c, r'⟩, t⟩ <;> rw [hrun] at hst hsettles
    · exact ⟨hst, hsettles⟩
    · exact ⟨hst, hsettles.1, r', hsettles.2, rfl⟩

theorem evaluation_eq (htongue : blank.tongue = tongue) (hr : Stands tongue scope d r)
    (now : Instant) (record : Json) (env : Environment) :
    evaluation blank scope d now record env =
      (r.withScope scope).interpret tongue now record env := by
  rw [evaluation, hr.made]
  exact (Rule.evaluate_ends hr.audit (Rule.keeps_cold (cold_of_ofDefinition hr.made))
    ⟨now, record, env⟩ blank hblank htongue).2.1

end Blank

/-- The check of a stored rule is found again by every compilation. -/
theorem Stands.compile (h : Stands tongue scope d r) :
    ∃ c, Rule.Says tongue c (r.withScope scope) ∧ ∀ s, r.compile false s = ((.ok c, r), s) := by
  obtain ⟨c, hmemo, hsays⟩ := h.kept
  exact ⟨c, hsays, Rule.compile_kept hmemo⟩

theorem Stands.evaluate_ends (h : Stands tongue scope d r) (now : Instant) (record : Json)
    (env : Environment) : Work.Ends tongue (r.evaluate now record env)
      (· = ((r.withScope scope).interpret tongue now record env, r)) := by
  obtain ⟨c, hsays, hcompile⟩ := h.compile
  have hrun : r.evaluate now record env = do return (← (c.run now record env).run, r) := by
    funext s
    rw [Rule.evaluate, Work.state_bind_apply, hcompile]
    rfl
  rw [hrun]
  have hsaid := hsays now record env
  exact Work.Ends.bind hsaid.ends fun result hresult => Work.ends_pure (Prod.ext hresult rfl)

/-- Those of some definitions that are admitted have been bound to their names, in order. -/
structure Enters (blank : Session) (scope : ScopeId) (b : RuleBook) (m : Catalogue)
    (pairs : List (String × Definition)) (b' : RuleBook) : Prop where
  renders : Renders blank.tongue scope b' (m.bindAll (admitted blank scope pairs))
  steady : ∀ id, (∀ d, (id, d) ∉ admitted blank scope pairs) → b'.find? id = b.find? id

section Enters

variable {pairs : List (String × Definition)} {b' : RuleBook}

theorem admitted_cons (hd : admission blank scope d = .ok ()) :
    admitted blank scope ((id, d) :: pairs) = (id, d) :: admitted blank scope pairs :=
  List.filter_cons_of_pos (by rw [admits, hd]; rfl)

theorem admitted_skip {f : Fault} (hd : admission blank scope d = .error f) :
    admitted blank scope ((id, d) :: pairs) = admitted blank scope pairs :=
  List.filter_cons_of_neg (by rw [admits, hd]; exact Bool.false_ne_true)

theorem enters_nil (h : Renders blank.tongue scope b m) : Enters blank scope b m [] b :=
  ⟨h, fun _ _ => rfl⟩

/-- Names that are bound one after the other are bound all. -/
theorem Enters.cons (hd : admission blank scope d = .ok ())
    (h : Enters blank scope { b with rules := Members.put id r b.rules } (m.bind id d) pairs b') :
    Enters blank scope b m ((id, d) :: pairs) b' := by
  refine ⟨?_, fun id' hid => ?_⟩
  · rw [admitted_cons hd]
    exact h.renders
  · rw [admitted_cons hd] at hid
    rw [h.steady id' fun d' hd' => hid d' (List.mem_cons_of_mem _ hd')]
    refine find?_put_of_ne fun heq => hid d ?_
    rw [heq]
    exact List.mem_cons_self

theorem Enters.skip {f : Fault} (hd : admission blank scope d = .error f)
    (h : Enters blank scope b m pairs b') : Enters blank scope b m ((id, d) :: pairs) b' := by
  refine ⟨?_, ?_⟩ <;> rw [admitted_skip hd]
  · exact h.renders
  · exact h.steady

end Enters

theorem load_ends (hblank : blank.Sound) (h : Renders blank.tongue scope b m) (id : String)
    (d : Definition) : Work.Ends blank.tongue (b.attempt (b.load id d)) fun out =>
      out.1 = .ofCheck (admission blank scope d) ∧ Enters blank scope b m [(id, d)] out.2 ∧
        ∀ f, out.1 = .fault f → out.2 = b := by
  refine Work.Ends.bind (load_makes hblank h.inScope id d) fun result hresult => ?_
  cases result with
  | error f =>
    have hadmission : admission blank scope d = .error f := hresult
    rw [hadmission]
    exact Work.ends_pure ⟨rfl, .skip hadmission (enters_nil h), fun _ _ => rfl⟩
  | ok b' =>
    obtain ⟨hadmission, r, hr, rfl⟩ := hresult
    rw [hadmission]
    exact Work.ends_pure ⟨rfl, .cons hadmission (enters_nil (h.put id hr)), nofun⟩

theorem loadAll_ends (hblank : blank.Sound) (pairs : List (String × Definition)) :
    ∀ {b : RuleBook} {m : Catalogue}, Renders blank.tongue scope b m →
      Work.Ends blank.tongue (b.loadAll pairs) fun out =>
        out.1 = (admitted blank scope pairs).map (·.1) ∧ Enters blank scope b m pairs out.2 := by
  induction pairs with
  | nil => exact fun h => Work.ends_pure ⟨rfl, enters_nil h⟩
  | cons p rest ih =>
    intro b m h
    obtain ⟨id, d⟩ := p
    refine Work.Ends.bind (load_makes hblank h.inScope id d) fun result hresult => ?_
    cases result with
    | error f =>
      have hadmission : admission blank scope d = .error f := hresult
      rw [admitted_skip hadmission]
      exact (ih h).imp fun out ⟨hids, henters⟩ => ⟨hids, henters.skip hadmission⟩
    | ok b' =>
      obtain ⟨hadmission, r, hr, rfl⟩ := hresult
      rw [admitted_cons hadmission]
      refine (ih (h.put id hr)).bind fun (ids, b') ⟨hids, henters⟩ => ?_
      exact Work.ends_pure ⟨congrArg (id :: ·) hids, henters.cons hadmission⟩

/-! ## Runs -/

/-- How a book serves an operation, where it renders a catalogue. -/
structure Serves (blank : Session) (scope : ScopeId) (m : Catalogue) (b : RuleBook)
    (op : Operation) (out : Answer × RuleBook) : Prop where
  answer : m.Answers blank scope op out.1
  renders : Renders blank.tongue scope out.2 (m.after blank scope op)
  fault : ∀ f, out.1 = .fault f → out.2 = b
  steady : ∀ id, ¬ m.Renews blank scope op id → out.2.find? id = b.find? id

theorem serves_of_enters {op : Operation} {out : Answer × RuleBook}
    (hafter : m.after blank scope op = m.bindAll (m.bindings blank scope op))
    (hanswer : m.Answers blank scope op out.1)
    (henters : Enters blank scope b m (m.offers op) out.2)
    (hfault : ∀ f, out.1 = .fault f → out.2 = b) : Serves blank scope m b op out where
  answer := hanswer
  renders := hafter ▸ henters.renders
  fault := hfault
  steady id hid := henters.steady id fun d hd => hid (.inl ⟨d, hd⟩)

/-- Operations that leave the book as it is. -/
theorem serves_of_same {op : Operation} {a : Answer} (h : Renders blank.tongue scope b m)
    (hafter : m.after blank scope op = m) (hanswer : m.Answers blank scope op a) :
    Serves blank scope m b op (a, b) where
  answer := hanswer
  renders := hafter.symm ▸ h
  fault _ _ := rfl
  steady _ _ := rfl

/-- Operations that would bind names but find nothing to bind. -/
theorem serves_of_nothing {op : Operation} {a : Answer} (h : Renders blank.tongue scope b m)
    (hafter : m.after blank scope op = m.bindAll (m.bindings blank scope op))
    (hoffers : m.offers op = []) (hanswer : m.Answers blank scope op a) :
    Serves blank scope m b op (a, b) := by
  refine serves_of_same h ?_ hanswer
  rw [hafter, Catalogue.bindings, hoffers]
  rfl

theorem load_serves (hblank : blank.Sound) (h : Renders blank.tongue scope b m) {op : Operation}
    (hafter : m.after blank scope op = m.bindAll (m.bindings blank scope op))
    (hoffers : m.offers op = [(id, d)])
    (hanswer : m.Answers blank scope op (.ofCheck (admission blank scope d))) :
    Work.Ends blank.tongue (b.attempt (b.load id d)) (Serves blank scope m b op) := by
  refine (load_ends hblank h id d).imp fun (a, b') ⟨ha, henters, hfault⟩ => ?_
  exact serves_of_enters hafter (ha ▸ hanswer) (hoffers ▸ henters) hfault

theorem evaluate_ends (hblank : blank.Sound) (h : Renders blank.tongue scope b m) (now : Instant)
    (id : String) (record : Json) (env : Environment) :
    Work.Ends blank.tongue (b.evaluate now id record env) fun out =>
      (out.1 = match m id with
        | some d => evaluation blank scope d now record env
        | none => .error (.ruleMissing id)) ∧ out.2 = b := by
  rw [evaluate]
  cases hm : m id with
  | none =>
    rw [h.find_unbound hm]
    exact Work.ends_pure ⟨rfl, rfl⟩
  | some d =>
    obtain ⟨r, hr, hstands⟩ := h.find_bound hm
    rw [hr]
    refine (hstands.evaluate_ends now record env).bind fun (result, r') hout => ?_
    cases hout
    refine Work.ends_pure ⟨(evaluation_eq hblank rfl hstands now record env).symm, ?_⟩
    rw [Members.put_of_value? h.sorted hr]

/-- One operation serves, and the book renders the catalogue that comes of it. -/
theorem perform_ends (hblank : blank.Sound) (h : Renders blank.tongue scope b m) (op : Operation) :
    Work.Ends blank.tongue (b.perform op) (Serves blank scope m b op) := by
  cases op with
  | load id d => exact load_serves hblank h rfl rfl rfl
  | loadText id text =>
    rw [perform, loadText]
    cases hd : Definition.ofText text with
    | none =>
      refine Work.ends_pure (serves_of_nothing h rfl ?_ ?_)
      · rw [Catalogue.offers, hd]
        rfl
      · rw [Catalogue.Answers, hd]
        rfl
    | some d =>
      refine load_serves hblank h rfl ?_ ?_
      · rw [Catalogue.offers, hd]
        rfl
      · rw [Catalogue.Answers, hd]
  | loadRule id r =>
    rw [perform, loadRule_eq]
    exact load_serves hblank h rfl rfl rfl
  | replace id d =>
    rw [perform, replace, h.contains]
    cases hm : m id with
    | none =>
      refine Work.ends_pure (serves_of_nothing h rfl ?_ ?_)
      · rw [Catalogue.offers, hm]
        rfl
      · rw [Catalogue.Answers, hm]
        rfl
    | some old =>
      refine load_serves hblank h rfl ?_ ?_
      · rw [Catalogue.offers, hm]
        rfl
      · rw [Catalogue.Answers, hm]
  | loadAll pairs =>
    refine (loadAll_ends hblank pairs h).bind fun (ids, b') ⟨hids, henters⟩ => ?_
    exact Work.ends_pure (serves_of_enters rfl (congrArg _ hids) henters nofun)
  | remove id =>
    rw [perform, RuleBook.remove, h.contains]
    cases hm : m id with
    | none =>
      refine Work.ends_pure (serves_of_same h ?_ ?_)
      · exact Function.update_eq_self_iff.mpr hm.symm
      · rw [Catalogue.Answers, hm]
        rfl
    | some d =>
      refine Work.ends_pure ⟨?_, h.remove id, nofun, fun id' hid => ?_⟩
      · rw [Catalogue.Answers, hm]
        rfl
      · refine find?_remove_of_ne h.sorted ?_
        rintro rfl
        exact hid (.inr (.inl rfl))
  | clear =>
    refine Work.ends_pure ⟨rfl, ?_, nofun, fun id hid => absurd (.inr (.inr rfl)) hid⟩
    exact ⟨h.inScope, .nil, fun _ => .none⟩
  | get id =>
    refine Work.ends_pure (serves_of_same h rfl ?_)
    rw [Catalogue.Answers]
    cases hm : m id with
    | none => rw [h.find_unbound hm]
    | some d =>
      obtain ⟨r, hr, hstands⟩ := h.find_bound hm
      exact ⟨r, by rw [hr], hstands.made⟩
  | contains id =>
    exact Work.ends_pure (serves_of_same h rfl (congrArg _ (h.contains id)))
  | ids => exact Work.ends_pure (serves_of_same h rfl ⟨b.ids, h.lists, rfl⟩)
  | size =>
    refine Work.ends_pure (serves_of_same h rfl ⟨b.ids, h.lists, ?_⟩)
    rw [size, ids, Members.names, List.length_map]
  | evaluate now id record env =>
    rw [perform]
    refine (evaluate_ends hblank h now id record env).bind fun out hout => ?_
    obtain ⟨result, b'⟩ := out
    obtain ⟨hresult, rfl⟩ := hout
    exact Work.ends_pure (serves_of_same h rfl (congrArg _ hresult))

theorem performAll_ends (hblank : blank.Sound) (ops : List Operation) :
    ∀ {b : RuleBook} {m : Catalogue}, Renders blank.tongue scope b m →
      Work.Ends blank.tongue (b.performAll ops) fun out =>
        Renders blank.tongue scope out.2 (ops.foldl (fun m op => m.after blank scope op) m) := by
  induction ops with
  | nil => exact fun h => Work.ends_pure h
  | cons op rest ih =>
    intro b m h
    refine (perform_ends hblank h op).bind fun (answer, b') hserves => ?_
    exact (ih hserves.renders).bind fun (answers, b'') h => Work.ends_pure h

def outcome {α : Type} (w : StateM Session (α × RuleBook)) (s : Session) : RuleBook × Session :=
  ((w s).1.2, (w s).2)

/-- Loading definitions together comes to the same as loading them one after the other, down to
what the caches hold. -/
theorem outcome_loadAll (pairs : List (String × Definition)) (b : RuleBook) (s : Session) :
    outcome (b.loadAll pairs) s = outcome (b.performAll (pairs.map fun p => .load p.1 p.2)) s := by
  induction pairs generalizing b s with
  | nil => rfl
  | cons p rest ih =>
    obtain ⟨id, d⟩ := p
    simp only [outcome, loadAll, List.map_cons, performAll, perform, attempt,
      Work.state_bind_apply]
    rcases (b.load id d).run s with ⟨f | b', t⟩
    · exact ih b t
    · exact ih b' t

/-- How a book behaves that has come about by a run. -/
structure Behaves (blank : Session) (scope : ScopeId) (m : Catalogue) (b : RuleBook) (s : Session)
    (op : Operation) : Prop where
  serves : Serves blank scope m b op (b.perform op s).1
  /-- The check of a stored rule is the same whenever the rule is compiled. -/
  kept : ∀ id r, b.find? id = some r → ∃ c, ∀ t, r.compile false t = ((.ok c, r), t)
  /-- Definitions are loaded together as they are one after the other. -/
  together : ∀ pairs, op = .loadAll pairs →
    outcome (b.perform op) s = outcome (b.performAll (pairs.map fun p => .load p.1 p.2)) s
  /-- A definition that replaces nothing is not looked at. -/
  missing : ∀ id d, op = .replace id d → m id = none →
    b.perform op s = ((.fault (.ruleMissing id), b), s)

/-- After any run a rule book behaves like the catalogue that the run comes to. -/
theorem behaves_of_run (scope : ScopeId) {s : Session} (hs : s.Reached) (ops : List Operation)
    (op : Operation) :
    let out := performAll ⟨scope, []⟩ ops s
    Behaves s.emptied scope (Catalogue.afterAll s.emptied scope ops) out.1.2 out.2 op := by
  intro out
  have hblank := s.sound_emptied
  obtain ⟨hleads, hrenders⟩ := performAll_ends hblank ops (renders_empty scope) s hs.sound
    s.tongue_emptied.symm
  obtain ⟨-, hserves⟩ := perform_ends hblank hrenders op out.2 hleads.sound
    (hleads.tongue.trans s.tongue_emptied.symm)
  refine ⟨hserves, fun id r hr => ?_, ?_, ?_⟩
  · cases hm : Catalogue.afterAll s.emptied scope ops id with
    | none => cases hr.symm.trans (hrenders.find_unbound hm)
    | some d =>
      obtain ⟨r', hr', hstands⟩ := hrenders.find_bound hm
      cases hr.symm.trans hr'
      obtain ⟨c, -, hcompile⟩ := hstands.compile
      exact ⟨c, hcompile⟩
  · rintro pairs rfl
    exact outcome_loadAll pairs out.1.2 out.2
  · rintro id d rfl hm
    have hmissing : out.1.2.contains id = false := by
      rw [hrenders.contains]
      exact congrArg Option.isSome hm
    rw [perform, replace, hmissing]
    rfl

/-- A definition that is refused leaves the one before it in its place. -/
theorem behaves_of_run_refused :
    let s := (({} : Session).openScope (.bounded (some 0) "de")).2
    let out := performAll ⟨⟨0⟩, []⟩ [.load "a" {}, .load "a" { kind := some "COMPOUND" }] s
    s.Reached ∧
      (out.1.2.perform (.evaluate default "a" .null []) out.2).1.1 = .trace Trace.pass := by
  intro s out
  have hs : s.Reached := Session.reached_empty.openScope (some 0) "de"
  have hanswer := (behaves_of_run ⟨0⟩ hs [.load "a" {}, .load "a" { kind := some "COMPOUND" }]
    (.evaluate default "a" .null [])).serves.answer
  have hbound : Catalogue.afterAll s.emptied ⟨0⟩
      [.load "a" {}, .load "a" { kind := some "COMPOUND" }] "a" = some {} := by
    rfl
  rw [Catalogue.Answers, hbound] at hanswer
  exact ⟨hs, hanswer⟩

end Verdict.RuleBook
