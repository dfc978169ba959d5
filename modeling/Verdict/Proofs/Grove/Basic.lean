import Mathlib.Logic.Function.Basic
import Mathlib.Logic.Relation
import Verdict.Proofs.Rule.Visit

/-!
# Groves

All trees that are in use at one time, each under a name of its own, and what can be done with them:
they are planted, copied, edited, put together and taken apart, moved to another scope and compiled
at any of their nodes, and checks are run in between.  A node can be followed through all of this,
as nothing but dropping it makes it disappear.
-/

namespace Verdict

/-- Trees under names, and the session that they share. -/
structure Grove where
  session : Session
  trees : String → Option Rule

structure Place where
  tree : String
  way : List Rule.Branch

/-- The two ways in which a rule stands below another one. -/
inductive Limb where
  | child
  | dependency

namespace Grove

open Rule (Branch Edit)

/-! ## Operations -/

def node? (g : Grove) (q : Place) : Option Rule :=
  (g.trees q.tree).bind (·.node? q.way)

def put (g : Grove) (name : String) (tree : Option Rule) : Grove :=
  { g with trees := Function.update g.trees name tree }

def add (tree : Rule) : Limb → Edit
  | .child => .pushChild tree
  | .dependency => .pushDependency tree

def cut : Branch → Edit
  | .child i => .removeChild i
  | .dependency i => .removeDependency i

theorem guest?_add (tree : Rule) (limb : Limb) : (add tree limb).guest? = some tree := by
  cases limb <;> rfl

theorem guest?_cut (b : Branch) : (cut b).guest? = none := by
  cases b <;> rfl

/-- What can be done in a grove.  To evaluate a rule is to compile it and to run the check. -/
inductive Operation where
  | plant (name : String) (tree : Rule)
  | copy (source : Place) (name : String)
  | drop (name : String)
  /-- Changes a node without adding a rule. -/
  | edit (place : Place) (e : Edit)
  /-- Adds the tree under a name below a node. -/
  | graft (place : Place) (limb : Limb) (name : String)
  /-- Takes a rule below a node away and gives it a name. -/
  | prune (place : Place) (b : Branch) (name : String)
  | move (name : String) (scope : ScopeId)
  | compile (place : Place) (force : Bool)
  | run (c : Check) (now : Instant) (record : Json) (env : Environment)
  | fetchPath (scope : ScopeId) (text : String)
  | fetchPattern (scope : ScopeId) (text : String)
  | clearPaths (scope : ScopeId)

def clearPaths (s : Session) (scope : ScopeId) : Session :=
  s.setScope scope { s.scope scope with paths := (s.scope scope).paths.clear }

/-- The operations that can be performed in a grove, and the groves that they lead to.  A new tree
keeps no checks. -/
inductive Performs (g : Grove) : Operation → Grove → Prop
  | plant {name : String} {r : Rule} (hname : g.trees name = none)
      (hcold : ∀ n ∈ r.nodes, n.memo = none) : Performs g (.plant name r) (g.put name r)
  | copy {q : Place} {name : String} {p : Rule} (hname : g.trees name = none)
      (hp : g.node? q = some p) : Performs g (.copy q name) (g.put name p)
  | drop {name : String} : Performs g (.drop name) (g.put name none)
  | edit {q : Place} {e : Edit} {r p p' : Rule} (hguest : e.guest? = none)
      (hr : g.trees q.tree = some r) (hp : r.node? q.way = some p) (he : e.apply p = some p') :
      Performs g (.edit q e) (g.put q.tree (r.setNode p' q.way))
  | graft {q : Place} {limb : Limb} {name : String} {r p p' x : Rule} (hname : name ≠ q.tree)
      (hx : g.trees name = some x) (hr : g.trees q.tree = some r) (hp : r.node? q.way = some p)
      (he : (add x limb).apply p = some p') :
      Performs g (.graft q limb name) ((g.put name none).put q.tree (r.setNode p' q.way))
  | prune {q : Place} {b : Branch} {name : String} {r p p' x : Rule}
      (hname : g.trees name = none) (hr : g.trees q.tree = some r)
      (hp : r.node? q.way = some p) (hx : p.branch? b = some x)
      (he : (cut b).apply p = some p') :
      Performs g (.prune q b name) ((g.put q.tree (r.setNode p' q.way)).put name x)
  | move {name : String} {scope : ScopeId} {r : Rule} (hr : g.trees name = some r) :
      Performs g (.move name scope) (g.put name (r.withScope scope))
  | compile {q : Place} {force : Bool} {r p : Rule} (hr : g.trees q.tree = some r)
      (hp : r.node? q.way = some p) :
      Performs g (.compile q force)
        { g.put q.tree (r.setNode (p.compile force g.session).1.2 q.way) with
          session := (p.compile force g.session).2 }
  | run {c : Check} {now : Instant} {record : Json} {env : Environment} :
      Performs g (.run c now record env) { g with session := (c.run now record env g.session).2 }
  | fetchPath {scope : ScopeId} {text : String} :
      Performs g (.fetchPath scope text) { g with session := (Work.path scope text g.session).2 }
  | fetchPattern {scope : ScopeId} {text : String} :
      Performs g (.fetchPattern scope text)
        { g with session := (Work.pattern scope text g.session).2 }
  | clearPaths {scope : ScopeId} :
      Performs g (.clearPaths scope) { g with session := clearPaths g.session scope }

/-- Operations lead from one grove to the other. -/
def Reaches : Grove → Grove → Prop :=
  Relation.ReflTransGen fun g h => ∃ op, Performs g op h

/-! ## Following a node -/

def followEdit (place : Place) (e : Edit) (q : Place) : Option Place :=
  if q.tree = place.tree then (e.followFrom place.way q.way).map (⟨place.tree, ·⟩) else some q

/-- The place of a node after an operation; nothing if the node is gone. -/
def follow (g : Grove) : Operation → Place → Option Place
  | .drop name, q => if q.tree = name then none else some q
  | .edit place e, q => followEdit place e q
  | .graft place limb name, q =>
    if q.tree = name then do
      let x ← g.trees name
      let p ← g.node? place
      return ⟨place.tree, place.way ++ ((add x limb).port p ++ q.way)⟩
    else some q
  | .prune place b name, q =>
    if q.tree = place.tree then
      match q.way.dropPrefix? (place.way ++ [b]) with
      | some w => some ⟨name, w⟩
      | none => followEdit place (cut b) q
    else some q
  | _, q => some q

/-! ## Trees under names -/

section Put

variable {g : Grove} {name : String} {tree : Option Rule} {r : Rule} {q : Place}

theorem trees_put_self : (g.put name tree).trees name = tree := by
  simp only [put, Function.update_self]

theorem trees_put_of_ne {name' : String} (h : name' ≠ name) :
    (g.put name tree).trees name' = g.trees name' := by
  simp only [put, Function.update_of_ne h]

theorem node?_put_self (h : q.tree = name) : (g.put name (some r)).node? q = r.node? q.way := by
  rw [node?, h, trees_put_self, Option.bind_some]

theorem node?_put_mk {way : List Branch} :
    (g.put name (some r)).node? ⟨name, way⟩ = r.node? way :=
  node?_put_self rfl

theorem node?_put_of_ne (h : q.tree ≠ name) : (g.put name tree).node? q = g.node? q := by
  rw [node?, trees_put_of_ne h, node?]

theorem node?_eq_some {n : Rule} (h : g.node? q = some n) :
    ∃ r, g.trees q.tree = some r ∧ r.node? q.way = some n :=
  Option.bind_eq_some_iff.mp h

theorem node?_below {p n : Rule} {w : List Branch} (hp : g.node? q = some p)
    (hn : p.node? w = some n) : g.node? ⟨q.tree, q.way ++ w⟩ = some n := by
  obtain ⟨r, hr, hp⟩ := node?_eq_some hp
  rw [node?, hr, Option.bind_some, Rule.node?_append, hp, Option.bind_some, hn]

theorem ne_of_node? {n : Rule} (hn : g.node? q = some n) (hname : g.trees name = none) :
    q.tree ≠ name := by
  rintro rfl
  rw [node?, hname] at hn
  cases hn

def All (P : Rule → Prop) (g : Grove) : Prop :=
  ∀ name r, g.trees name = some r → P r

variable {P : Rule → Prop} {x : Rule}

theorem All.imp {Q : Rule → Prop} (hg : g.All P) (h : ∀ r, P r → Q r) : g.All Q :=
  fun name r hr => h r (hg name r hr)

theorem All.put_none (hg : g.All P) : (g.put name none).All P := by
  intro name' r hr
  by_cases h : name' = name
  · rw [h, trees_put_self] at hr
    cases hr
  · rw [trees_put_of_ne h] at hr
    exact hg name' r hr

theorem All.put_some (hg : g.All P) (hx : P x) : (g.put name (some x)).All P := by
  intro name' r hr
  by_cases h : name' = name
  · rw [h, trees_put_self] at hr
    cases hr
    exact hx
  · rw [trees_put_of_ne h] at hr
    exact hg name' r hr

end Put

/-! ## Sessions -/

/-- No operation leads back to an earlier session. -/
theorem Performs.before {g h : Grove} {op : Operation} (hstep : Performs g op h) :
    g.session.Before h.session := by
  cases hstep with
  | compile hr hp => exact Rule.compile_advances _ _ g.session
  | run => exact Check.run_advances _ _ _ _ g.session
  | fetchPath => exact Work.advances_path _ _ g.session
  | fetchPattern => exact Work.advances_pattern _ _ g.session
  | @clearPaths scope =>
    exact g.session.before_setScope scope
      { g.session.scope scope with paths := (g.session.scope scope).paths.clear }
      (fun hs => ⟨Cache.sound_of_no_entries rfl, (hs scope).patterns⟩) rfl (Nat.le_refl _)
  | _ => exact .refl g.session

theorem Reaches.before {g h : Grove} (hreach : Reaches g h) : g.session.Before h.session := by
  induction hreach with
  | refl => exact .refl g.session
  | tail _ hstep ih =>
    obtain ⟨op, hstep⟩ := hstep
    exact ih.trans hstep.before

end Grove

end Verdict
