import Verdict.Proofs.Cache
import Verdict.Scope

/-!
# Work in a session

Sound sessions hold in their caches only what the keys spell.  Work that reads paths and patterns
through such caches comes to the result that it would come to without them, leaves the session
sound and never changes a locale.  The lemmas here carry both facts through sequences of work.
-/

namespace Verdict

/-- The caches of a scope hold what their keys spell. -/
structure Scope.Sound (scope : Scope) : Prop where
  paths : scope.paths.Sound Path.compile
  patterns : scope.patterns.Sound Pattern.buildDelimited

namespace Session

def Sound (s : Session) : Prop :=
  ∀ id, (s.scope id).Sound

/-- The caches of every scope have been used by their own operations only. -/
def Reached (s : Session) : Prop :=
  ∀ id, (s.scope id).paths.Reached Path.compile
    ∧ (s.scope id).patterns.Reached Pattern.buildDelimited

theorem Reached.sound {s : Session} (h : s.Reached) : s.Sound :=
  fun id => ⟨(h id).1.sound, (h id).2.sound⟩

theorem reached_empty : Reached {} := by
  intro id
  rw [scope, Array.getD_eq_getD_getElem?, Array.getElem?_empty]
  exact ⟨.empty none, .empty none⟩

/-- The same scopes with nothing in their caches. -/
def emptied (s : Session) : Session :=
  { scopes := s.scopes.map fun scope => .bounded none scope.locale }

theorem scope_emptied (s : Session) (id : ScopeId) :
    s.emptied.scope id = .bounded none (s.scope id).locale := by
  rw [scope, scope, emptied, Array.getD_eq_getD_getElem?, Array.getD_eq_getD_getElem?,
    Array.getElem?_map]
  cases s.scopes[id.index]? <;> rfl

theorem sound_emptied (s : Session) : s.emptied.Sound := by
  intro id
  rw [scope_emptied]
  exact ⟨(Cache.Reached.empty none).sound, (Cache.Reached.empty none).sound⟩

theorem Reached.openScope {s : Session} (h : s.Reached) (capacity : Option Nat)
    (locale : String) : (s.openScope (.bounded capacity locale)).2.Reached := by
  intro id
  rw [scope, Session.openScope, Array.getD_eq_getD_getElem?, Array.getElem?_push]
  split
  · exact ⟨.empty capacity, .empty capacity⟩
  · rw [← Array.getD_eq_getD_getElem?]
    exact h id

def tongue (s : Session) (id : ScopeId) : String :=
  (s.scope id).locale

theorem tongue_emptied (s : Session) : s.emptied.tongue = s.tongue := by
  funext id
  rw [tongue, scope_emptied]
  rfl

/-- A later session: still sound, with the locales of the earlier one. -/
structure Leads (s t : Session) : Prop where
  sound : t.Sound
  tongue : t.tongue = s.tongue

theorem Leads.refl {s : Session} (hs : s.Sound) : s.Leads s :=
  ⟨hs, rfl⟩

theorem Leads.trans {s t u : Session} (hst : s.Leads t) (htu : t.Leads u) : s.Leads u :=
  ⟨htu.sound, htu.tongue.trans hst.tongue⟩

theorem scope_setScope (s : Session) (id j : ScopeId) (scope : Scope) :
    (s.setScope id scope).scope j =
      if j = id ∧ id.index < s.scopes.size then scope else s.scope j := by
  obtain ⟨i⟩ := id
  obtain ⟨j⟩ := j
  simp only [Session.scope, setScope, Array.getD_eq_getD_getElem?, Array.getElem?_setIfInBounds,
    ScopeId.mk.injEq]
  by_cases hij : i = j
  · subst hij
    by_cases hi : i < s.scopes.size
    · simp [hi]
    · simp [hi]
  · simp [hij, Ne.symm hij]

theorem leads_setScope {s : Session} (hs : s.Sound) (id : ScopeId) (scope : Scope)
    (hscope : scope.Sound) (hlocale : scope.locale = s.tongue id) (fresh : Nat) :
    s.Leads { s.setScope id scope with fresh } := by
  have hview : ∀ j, Session.scope { s.setScope id scope with fresh } j =
      if j = id ∧ id.index < s.scopes.size then scope else s.scope j :=
    fun j => scope_setScope s id j scope
  constructor
  · intro j
    rw [hview j]
    split
    · exact hscope
    · exact hs j
  · funext j
    rw [tongue, hview j]
    split
    · rename_i h
      rw [hlocale, h.1]
    · rfl

theorem leads_fresh {s : Session} (hs : s.Sound) (fresh : Nat) : s.Leads { s with fresh } :=
  ⟨hs, rfl⟩

end Session

namespace Work

variable {α β : Type}

theorem state_bind_apply (w : StateM Session α) (k : α → StateM Session β) (s : Session) :
    (w >>= k) s = k (w s).1 (w s).2 :=
  rfl

theorem bind_apply (w : Work α) (k : α → Work β) (s : Session) :
    (w >>= k) s = match w s with
      | (.ok a, t) => k a t
      | (.error f, t) => (.error f, t) := by
  change (match w s with | (r, t) => (ExceptT.bindCont k r) t) = _
  rcases w s with ⟨_ | _, _⟩ <;> rfl

/-- Work whose results are all like this, even in sessions that are not sound. -/
def Always (w : StateM Session α) (P : α → Prop) : Prop :=
  ∀ s, P (w s).1

theorem always_true (w : StateM Session α) : Always w fun _ => True :=
  fun _ => trivial

theorem Always.bind {w : StateM Session α} {k : α → StateM Session β} {P : α → Prop}
    {Q : β → Prop} (hw : Always w P) (hk : ∀ a, P a → Always (k a) Q) : Always (w >>= k) Q :=
  fun s => hk _ (hw s) _

/-! ## Work with one result -/

/-- Work that comes to `r` in every sound session, whatever its caches hold. -/
def Yields (w : Work α) (r : Except Fault α) : Prop :=
  ∀ s : Session, s.Sound → ∃ t, w s = (r, t) ∧ s.Leads t

theorem yields_pure (a : α) : (pure a : Work α).Yields (.ok a) :=
  fun s hs => ⟨s, rfl, .refl hs⟩

theorem yields_throw (f : Fault) : (throw f : Work α).Yields (.error f) :=
  fun s hs => ⟨s, rfl, .refl hs⟩

theorem yields_lift (r : Except Fault α) : (liftM r : Work α).Yields r := by
  intro s hs
  refine ⟨s, ?_, .refl hs⟩
  cases r <;> rfl

theorem Yields.bind {w : Work α} {r : Except Fault α} {k : α → Work β} {f : α → Except Fault β}
    (hw : w.Yields r) (hk : ∀ a, (k a).Yields (f a)) : (w >>= k).Yields (r >>= f) := by
  intro s hs
  obtain ⟨t, hrun, hst⟩ := hw s hs
  rw [bind_apply, hrun]
  cases r with
  | error e => exact ⟨t, rfl, hst⟩
  | ok a =>
    obtain ⟨u, hk, htu⟩ := hk a t hst.sound
    exact ⟨u, hk, hst.trans htu⟩

theorem Yields.map {w : Work α} {r : Except Fault α} (hw : w.Yields r) (f : α → β) :
    (do return f (← w) : Work β).Yields (r.map f) := by
  intro s hs
  obtain ⟨t, hrun, hst⟩ := hw s hs
  refine ⟨t, ?_, hst⟩
  rw [bind_apply, hrun]
  cases r <;> rfl

theorem yields_mapM {γ : Type} {w : γ → Work α} {f : γ → Except Fault α}
    (h : ∀ x, (w x).Yields (f x)) (xs : List γ) : (xs.mapM w).Yields (xs.mapM f) := by
  induction xs with
  | nil => exact yields_pure []
  | cons x xs ih =>
    rw [List.mapM_cons, List.mapM_cons]
    exact (h x).bind fun a => ih.bind fun as => yields_pure (a :: as)

/-! ## Work with a result of some kind -/

/-- Work that, in the sound sessions with given locales, ends in such a way. -/
def Ends (tongue : ScopeId → String) (w : StateM Session α) (End : α → Prop) : Prop :=
  ∀ s : Session, s.Sound → s.tongue = tongue → s.Leads (w s).2 ∧ End (w s).1

def Settles (check : Except Fault Unit) (Good : α → Prop) : Except Fault α → Prop
  | .ok a => check = .ok () ∧ Good a
  | .error f => check = .error f

def Makes (tongue : ScopeId → String) (w : Work α) (check : Except Fault Unit)
    (Good : α → Prop) : Prop :=
  Ends tongue w (Settles check Good)

variable {tongue : ScopeId → String} {check : Except Fault Unit} {Good : α → Prop}

/-- There is a result exactly if the check passes. -/
theorem Settles.isOk_iff {r : Except Fault α} (h : Settles check Good r) :
    (∃ a, r = .ok a) ↔ check = .ok () := by
  cases r with
  | ok a => exact ⟨fun _ => h.1, fun _ => ⟨a, rfl⟩⟩
  | error f =>
    rw [show check = .error f from h]
    exact iff_of_false nofun nofun

theorem Settles.imp {Better : α → Prop} {r : Except Fault α} (h : Settles check Good r)
    (hgood : ∀ a, Good a → Better a) : Settles check Better r := by
  cases r with
  | error e => exact h
  | ok a => exact ⟨h.1, hgood a h.2⟩

theorem Settles.map {f : α → β} {Better : β → Prop} {r : Except Fault α}
    (h : Settles check Good r) (hf : ∀ a, Good a → Better (f a)) :
    Settles check Better (r.map f) := by
  cases r with
  | error e => exact h
  | ok a => exact ⟨h.1, hf a h.2⟩

theorem ends_pure {End : α → Prop} {a : α} (ha : End a) : Ends tongue (pure a) End :=
  fun _ hs _ => ⟨.refl hs, ha⟩

theorem Ends.imp {w : StateM Session α} {End Last : α → Prop} (hw : Ends tongue w End)
    (h : ∀ a, End a → Last a) : Ends tongue w Last :=
  fun s hs ht => (hw s hs ht).imp_right (h _)

theorem Ends.bind {w : StateM Session α} {k : α → StateM Session β} {End : α → Prop}
    {Last : β → Prop} (hw : Ends tongue w End) (hk : ∀ a, End a → Ends tongue (k a) Last) :
    Ends tongue (w >>= k) Last := by
  intro s hs ht
  obtain ⟨hst, ha⟩ := hw s hs ht
  obtain ⟨htu, hlast⟩ := hk _ ha (w s).2 hst.sound (hst.tongue.trans ht)
  exact ⟨hst.trans htu, hlast⟩

theorem ends_fresh : Ends tongue
    (modifyGet fun s => (s.fresh, { s with fresh := s.fresh + 1 })) fun _ => True :=
  fun _ hs _ => ⟨Session.leads_fresh hs _, trivial⟩

theorem makes_pure {a : α} (ha : Good a) : Makes tongue (pure a) (.ok ()) Good :=
  fun _ hs _ => ⟨.refl hs, rfl, ha⟩

theorem makes_throw (f : Fault) : Makes tongue (throw f : Work α) (.error f) Good :=
  fun _ hs _ => ⟨.refl hs, rfl⟩

theorem Yields.ends {w : Work α} {r : Except Fault α} (hw : w.Yields r) :
    Ends tongue w (· = r) := by
  intro s hs _
  obtain ⟨t, hrun, hst⟩ := hw s hs
  rw [hrun]
  exact ⟨hst, rfl⟩

/-- Work with one result settles whether there is one. -/
theorem Yields.makes {w : Work α} {r : Except Fault α} (hw : w.Yields r) :
    Makes tongue w (r.map fun _ => ()) (r = .ok ·) := by
  intro s hs _
  obtain ⟨t, hrun, hst⟩ := hw s hs
  rw [hrun]
  cases r with
  | error f => exact ⟨hst, rfl⟩
  | ok a => exact ⟨hst, rfl, rfl⟩

theorem Makes.bind {w : Work α} {k : α → Work β} {check' : Except Fault Unit} {Better : β → Prop}
    (hw : Makes tongue w check Good) (hk : ∀ a, Good a → Makes tongue (k a) check' Better) :
    Makes tongue (w >>= k) (do check; check') Better := by
  intro s hs ht
  obtain ⟨hst, hres⟩ := hw s hs ht
  rw [bind_apply]
  rcases hrun : w s with ⟨_ | a, t⟩ <;> rw [hrun] at hst hres
  · subst hres
    exact ⟨hst, rfl⟩
  · obtain ⟨rfl, ha⟩ := hres
    obtain ⟨htu, hlast⟩ := hk a ha t hst.sound (hst.tongue.trans ht)
    exact ⟨hst.trans htu, hlast⟩

/-- The work that follows cannot fail. -/
theorem Makes.bind_ok {w : Work α} {k : α → Work β} {Better : β → Prop}
    (hw : Makes tongue w check Good) (hk : ∀ a, Good a → Makes tongue (k a) (.ok ()) Better) :
    Makes tongue (w >>= k) check Better := by
  have h := hw.bind hk
  cases check <;> exact h

/-- The result of work, changed without further work. -/
theorem Makes.map {w : Work α} {f : α → β} {Better : β → Prop} (hw : Makes tongue w check Good)
    (hf : ∀ a, Good a → Better (f a)) : Makes tongue (do return f (← w)) check Better :=
  hw.bind_ok fun a ha => makes_pure (hf a ha)

/-! ## Paths, patterns and locales -/

theorem path_yields (id : ScopeId) (text : String) : (path id text).Yields (Path.compile text) := by
  intro s hs
  let out := (s.scope id).paths.fetch Path.compile text s.fresh
  have hvalue := Cache.fetch_value (hs id).paths text s.fresh
  have hkept := Cache.sound_fetch (hs id).paths text s.fresh
  exact ⟨_, Prod.ext hvalue rfl, Session.leads_setScope hs id { s.scope id with paths := out.2.1 }
    ⟨hkept, (hs id).patterns⟩ rfl out.2.2⟩

theorem pattern_yields (id : ScopeId) (text : String) :
    (pattern id text).Yields (Pattern.buildDelimited text) := by
  intro s hs
  let out := (s.scope id).patterns.fetch Pattern.buildDelimited text s.fresh
  have hvalue := Cache.fetch_value (hs id).patterns text s.fresh
  have hkept := Cache.sound_fetch (hs id).patterns text s.fresh
  exact ⟨_, Prod.ext hvalue rfl,
    Session.leads_setScope hs id { s.scope id with patterns := out.2.1 }
      ⟨(hs id).paths, hkept⟩ rfl out.2.2⟩

theorem locale_makes (id : ScopeId) : Makes tongue (locale id) (.ok ()) (· = tongue id) :=
  fun _ hs ht => ⟨.refl hs, rfl, congrFun ht id⟩

end Work

end Verdict
