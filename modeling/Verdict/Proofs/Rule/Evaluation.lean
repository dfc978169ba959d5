import Verdict.Proofs.Rule.Compile

/-!
# Evaluating a tree again and again

A tree that was never changed, but compiled at any of its nodes any number of times, answers like
the interpreter: neither the checks kept in it nor what the caches of its scopes hold can be told
from its answers.
-/

namespace Verdict.Rule

variable {tongue : ScopeId → String}

/-! ## Trees that were compiled only -/

/-- The trees that compiling nodes of a tree leads to from the tree without kept checks. -/
inductive Warmed (tongue : ScopeId → String) : Rule → Prop
  | cold {r : Rule} (h : ∀ n ∈ r.nodes, n.memo = none) : Warmed tongue r
  | compile {r n : Rule} {way : List Branch} {s : Session} (force : Bool) (h : Warmed tongue r)
      (hs : s.Reached) (ht : s.tongue = tongue) (hn : r.node? way = some n) :
      Warmed tongue (r.setNode (n.compile force s).1.2 way)

/-- A kept check counts only if it was made of the node that keeps it. -/
def Faithful (tongue : ScopeId → String) (n : Rule) (m : Memo) : Prop :=
  m.digest = n.digest → n.audit = .ok () ∧ Says tongue m.check n

theorem says_bare {c : Check} {r : Rule} : Says tongue c (r.bare id) ↔ Says tongue c r := by
  simp only [Says, interpret_bare, Function.comp_id]

theorem trusts_faithful (n : Rule) : Trusts (Says tongue) (Faithful tongue) n where
  use m hm hdigest := by
    obtain ⟨haudit, hsays⟩ := hm (hdigest.trans (digest_bare id n).symm)
    exact ⟨audit_bare id n ▸ haudit, says_bare.mp hsays⟩
  made c haudit hsays _ := ⟨(audit_bare id n).trans haudit, says_bare.mpr hsays⟩

theorem compile_settles {r : Rule} {s : Session} (hs : s.Sound)
    (hkeep : Keeps (Faithful s.tongue) r.nodes) (force : Bool) :
    Work.Settles r.audit (Says s.tongue · r) (r.compile force s).1.1 :=
  (compile_ends force r (fun n _ => trusts_faithful n) hkeep s hs rfl).2.1

/-- A tree without kept checks keeps nothing that could be wrong. -/
theorem keeps_cold {P : Rule → Memo → Prop} {r : Rule} (h : ∀ n ∈ r.nodes, n.memo = none) :
    Keeps P r.nodes := by
  intro n hn m hm
  rw [h n hn] at hm
  cases hm

theorem Warmed.keeps {r : Rule} (h : Warmed tongue r) : Keeps (Faithful tongue) r.nodes := by
  induction h with
  | cold h => exact keeps_cold h
  | @compile r n way s force _ hs ht hn ih =>
    have hkeep : Keeps (Faithful tongue) n.nodes := fun x hx => ih x (nodes_subset_node? hn hx)
    obtain ⟨-, -, hbare, hkeep'⟩ :=
      compile_ends force n (fun x _ => trusts_faithful x) hkeep s hs.sound ht
    exact keeps_setNode hbare hkeep' hn ih

/-! ## Evaluations -/

/-- What an evaluation is given: the time, a record and an environment. -/
structure Request where
  now : Instant
  record : Json
  env : Environment

def evaluateAll : Rule → List Request → StateM Session (List (Except Fault Trace) × Rule)
  | r, [] => return ([], r)
  | r, q :: rest => do
    let (answer, r) ← r.evaluate q.now q.record q.env
    let (answers, r) ← evaluateAll r rest
    return (answer :: answers, r)

theorem evaluate_ends {r : Rule} (haudit : r.audit = .ok ())
    (hkeep : Keeps (Faithful tongue) r.nodes) (q : Request) :
    Work.Ends tongue (r.evaluate q.now q.record q.env) fun out =>
      out.1 = r.interpret tongue q.now q.record q.env ∧ out.2.bare id = r.bare id
        ∧ Keeps (Faithful tongue) out.2.nodes := by
  rw [evaluate]
  refine (compile_ends false r (fun n _ => trusts_faithful n) hkeep).bind
    fun (result, r') ⟨hres, hbare, hkeep⟩ => ?_
  cases result with
  | error f =>
    rw [Work.Settles, haudit] at hres
    cases hres
  | ok check =>
    have hrun := hres.2 q.now q.record q.env
    refine Work.Ends.bind hrun.ends fun answer hanswer => ?_
    exact Work.ends_pure ⟨hanswer, hbare, hkeep⟩

theorem evaluateAll_ends (requests : List Request) : {r : Rule} → r.audit = .ok () →
    Keeps (Faithful tongue) r.nodes → Work.Ends tongue (r.evaluateAll requests) fun out =>
      out.1 = requests.map fun q => r.interpret tongue q.now q.record q.env := by
  induction requests with
  | nil => exact fun _ _ => Work.ends_pure rfl
  | cons q rest ih =>
    intro r haudit hkeep
    rw [evaluateAll]
    refine (evaluate_ends haudit hkeep q).bind fun (answer, r') ⟨hanswer, hbare, hkeep⟩ => ?_
    -- the tree has changed, but neither its audit nor its meaning
    have haudit' : r'.audit = .ok () := (audit_eq_of_bare id hbare).trans haudit
    have hmeans : ∀ now, r'.interpret tongue now = r.interpret tongue now :=
      fun now => interpret_eq_of_bare tongue now hbare
    have hrest := ih haudit' hkeep
    simp only [hmeans] at hrest
    refine hrest.bind fun (answers, r'') hanswers => ?_
    exact Work.ends_pure (congrArg₂ List.cons hanswer hanswers)

/-- The answers of a tree that compiles are those of the interpreter, whatever checks are kept in
it and whatever its scopes hold. -/
theorem evaluateAll_eq_interpret {r : Rule} {s : Session} (hr : Warmed s.tongue r)
    (hs : s.Reached) (hcompiles : ∃ c, (r.compile false s).1.1 = .ok c)
    (requests : List Request) :
    (r.evaluateAll requests s).1.1 =
      requests.map fun q => r.interpret s.tongue q.now q.record q.env := by
  have haudit : r.audit = .ok () := by
    have hres := compile_settles hs.sound hr.keeps false
    obtain ⟨c, hc⟩ := hcompiles
    rw [hc] at hres
    exact hres.1
  exact (evaluateAll_ends requests haudit hr.keeps s hs.sound rfl).2

theorem evaluateAll_eq_interpret_without_room :
    let r := simple ⟨0⟩ "age" .equal (.ofInt 3)
    let s := (({} : Session).openScope (.bounded (some 0) "de")).2
    Warmed s.tongue r ∧ s.Reached ∧ (∃ c, (r.compile false s).1.1 = .ok c) ∧
      ∀ requests, (r.evaluateAll requests s).1.1 =
        requests.map fun q => r.interpret s.tongue q.now q.record q.env := by
  have hok : ((simple ⟨0⟩ "age" .equal (.ofInt 3)).compile false
      (({} : Session).openScope (.bounded (some 0) "de")).2).1.1.isOk = true := by
    decide +kernel
  intro r s
  have hr : Warmed s.tongue r := .cold fun n hn => by rw [List.mem_singleton.mp hn]
  have hs : s.Reached := Session.reached_empty.openScope (some 0) "de"
  have hcompiles : ∃ c, (r.compile false s).1.1 = .ok c := by
    cases h : (r.compile false s).1.1 with
    | ok c => exact ⟨c, rfl⟩
    | error f => cases hok.symm.trans (congrArg Except.isOk h)
  exact ⟨hr, hs, hcompiles, evaluateAll_eq_interpret hr hs hcompiles⟩

end Verdict.Rule
