import Verdict.Proofs.Json.Text
import Verdict.Proofs.Rule.Agreement
import Verdict.Proofs.Rule.Plain

/-!
# Digests tell trees apart

The digest of a node is made of a text that spells its own fields and the digests of the nodes
below.  Where none of these texts collide, equal digests mean equal trees up to descriptions,
scopes and kept checks.
-/

namespace Verdict

/-- No two of these texts have the same digest. -/
def Digest.Apart (texts : List String) : Prop :=
  ∀ x ∈ texts, ∀ y ∈ texts, sha256 x = sha256 y → x = y

theorem Digest.Apart.mono {xs ys : List String} (h : Digest.Apart ys) (hxs : xs ⊆ ys) :
    Digest.Apart xs :=
  fun x hx y hy => h x (hxs hx) y (hxs hy)

/-! ## Plain forms are distinct -/

theorem Operand.toJson_injective {o p : Operand} (h : o.toJson = p.toJson) : o = p := by
  have hread := congrArg ofJson h
  rw [ofJson_toJson, ofJson_toJson] at hread
  exact Except.ok.inj hread

theorem Comparand.kind_injective {as as' : Comparand} (h : as.kind = as'.kind) : as = as' := by
  cases as <;> cases as' <;> first | rfl | cases h

/-- Tests of one kind with the same operands differ in the rules below them only. -/
theorem Test.withChildren_of_kind {ρ : Type} {test test' : Test ρ} (hkind : test.kind = test'.kind)
    (hleft : test.left = test'.left) (hright : test.right = test'.right) :
    test.withChildren test'.children = test' := by
  cases test with
  | compare as l r =>
    rw [kind_compare] at hkind
    cases test' with
    | compare as' l' r' =>
      rw [kind_compare] at hkind
      exact congr (congrArg₂ compare (Comparand.kind_injective hkind) hleft) hright
    | _ => cases as <;> cases hkind
  | compound cs =>
    cases test' with
    | compound cs' => rfl
    | compare as' l' r' => cases as' <;> cases hkind
    | _ => cases hkind
  | iterate l cs =>
    cases test' with
    | iterate l' cs' => exact congrArg (iterate · cs') hleft
    | compare as' l' r' => cases as' <;> cases hkind
    | _ => cases hkind
  | presence l =>
    cases test' with
    | presence l' => exact congrArg presence hleft
    | compare as' l' r' => cases as' <;> cases hkind
    | _ => cases hkind

namespace Rule

theorem plain_injective {o p : Option Operand} (h : plain o = plain p) : o = p := by
  have hsome : ∀ o : Operand, plain (some o) = .obj o.fields := Operand.toJson_eq
  have hnone : plain none = .null := rfl
  cases o with
  | none =>
    cases p with
    | none => rfl
    | some p =>
      rw [hnone, hsome] at h
      cases h
  | some o =>
    cases p with
    | none =>
      rw [hnone, hsome] at h
      cases h
    | some p => exact congrArg some (Operand.toJson_injective h)

theorem plainVariables_injective {locals : Members Operand} : {locals' : Members Operand} →
    plainVariables locals = plainVariables locals' → locals = locals' := by
  intro locals' h
  have hread := congrArg variablesOf h
  rw [variablesOf_plain, variablesOf_plain] at hread
  exact Except.ok.inj hread

theorem name_injective {op op' : Operator} (h : op.name = op'.name) : op = op' := by
  have hread := congrArg (operatorOf ∘ some) h
  rw [Function.comp, Function.comp, operatorOf_name, operatorOf_name] at hread
  exact Except.ok.inj hread

theorem kindName_injective {k k' : Kind} (h : k.name = k'.name) : k = k' := by
  have hread := congrArg (kindOf ∘ some) h
  rw [Function.comp, Function.comp, kindOf_name, kindOf_name] at hread
  exact Except.ok.inj hread

/-! ## The texts behind digests -/

/-- The JSON value that the digest of a node is made of. -/
def canonical (r : Rule) : Json :=
  .obj [("conditions", .arr (digestBelow r.test)),
    ("dependencies", .arr (digestAll r.dependencies)), ("left", plain r.left),
    ("operator", .str r.operator.name), ("right", plain r.right),
    ("type", .str r.kind.name), ("variables", .obj (plainVariables r.locals))]

theorem digest_eq (r : Rule) : r.digest = Digest.sha256 r.canonical.text := by
  obtain ⟨test, op, dependencies, locals, description, scope, memo⟩ := r
  rw [digest]
  rfl

/-- The texts that the digests in a tree are made of. -/
def texts (r : Rule) : List String :=
  r.nodes.map (·.canonical.text)

/-! ## Equal digests -/

section Texts

variable {known : List String} {move : ScopeId → ScopeId}

mutual
/-- Among texts that do not collide, trees with equal digests are equal once all scopes are. -/
theorem bare_of_digest (hapart : Digest.Apart known) (hmove : ∀ x y, move x = move y) :
    (a : Rule) → ∀ {b : Rule}, (∀ n ∈ a.nodes, n.canonical.text ∈ known) →
      (∀ n ∈ b.nodes, n.canonical.text ∈ known) → a.digest = b.digest →
      a.bare move = b.bare move
  | ⟨test, op, dependencies, locals, description, scope, memo⟩,
      ⟨test', op', dependencies', locals', description', scope', memo'⟩, ha, hb, h => by
    rw [digest_eq, digest_eq] at h
    have hcanonical := Json.text_injective
      (hapart _ (ha _ (mem_nodes_self _)) _ (hb _ (mem_nodes_self _)) h)
    simp only [canonical, Json.obj.injEq, List.cons.injEq, Prod.mk.injEq, true_and, and_true,
      Json.arr.injEq, Json.str.injEq] at hcanonical
    obtain ⟨hbelow, hdependencies, hleft, hop, hright, hkind, hlocals⟩ := hcanonical
    rw [nodes, List.forall_mem_cons, List.forall_mem_append] at ha hb
    have htest : test.withChildren test'.children = test' :=
      Test.withChildren_of_kind (kindName_injective hkind) (plain_injective hleft)
        (plain_injective hright)
    rw [← htest] at hbelow hb ⊢
    rw [bare, bare, hmove scope scope', name_injective hop, plainVariables_injective hlocals,
      bareAll_of_digest hapart hmove dependencies ha.2.2 hb.2.2 hdependencies,
      bareBelow_of_digest hapart hmove test ha.2.1 hb.2.1 hbelow]

theorem bareBelow_of_digest (hapart : Digest.Apart known) (hmove : ∀ x y, move x = move y) :
    (test : Test Rule) → ∀ {cs' : List Rule}, (∀ n ∈ nodesBelow test, n.canonical.text ∈ known) →
      (∀ n ∈ nodesBelow (test.withChildren cs'), n.canonical.text ∈ known) →
      digestBelow test = digestBelow (test.withChildren cs') →
      bareBelow move test = bareBelow move (test.withChildren cs')
  | .compound cs, _, ht, ht', h =>
    congrArg Test.compound (bareAll_of_digest hapart hmove cs ht ht' h)
  | .iterate l cs, _, ht, ht', h =>
    congrArg (Test.iterate l) (bareAll_of_digest hapart hmove cs ht ht' h)
  | .compare .., _, _, _, _ => rfl
  | .presence _, _, _, _, _ => rfl

theorem bareAll_of_digest (hapart : Digest.Apart known) (hmove : ∀ x y, move x = move y) :
    (as : List Rule) → ∀ {bs : List Rule}, (∀ n ∈ nodesAll as, n.canonical.text ∈ known) →
      (∀ n ∈ nodesAll bs, n.canonical.text ∈ known) → digestAll as = digestAll bs →
      bareAll move as = bareAll move bs
  | [], bs, _, _, h => by
    cases bs with
    | nil => rfl
    | cons b bs => cases h
  | a :: as, bs, ha, hb, h => by
    cases bs with
    | nil => cases h
    | cons b bs =>
      rw [digestAll, digestAll, List.cons.injEq, Json.str.injEq] at h
      rw [nodesAll, List.forall_mem_append] at ha hb
      rw [bareAll, bareAll, bare_of_digest hapart hmove a ha.1 hb.1 h.1,
        bareAll_of_digest hapart hmove as ha.2 hb.2 h.2]
end

end Texts

variable {a b : Rule}

theorem essence_of_digest (hapart : Digest.Apart (a.texts ++ b.texts)) (h : a.digest = b.digest) :
    a.essence = b.essence := by
  refine bare_of_digest hapart (fun _ _ => rfl) a ?_ ?_ h
  · exact fun n hn => List.mem_append_left _ (List.mem_map_of_mem hn)
  · exact fun n hn => List.mem_append_right _ (List.mem_map_of_mem hn)

/-- Where no texts collide, two trees have one digest exactly if they have one essence.  Then no
answer tells them apart, at one time or, without relative days, at any two times, as long as no
checks are kept in them and all their scopes have one locale. -/
theorem digest_decides (hapart : Digest.Apart (a.texts ++ b.texts)) :
    (a.digest = b.digest ↔ a.essence = b.essence) ∧
      (a.digest = b.digest → ∀ (s t : Session) (locale : String), s.Sound → t.Sound →
        (∀ n ∈ a.nodes, n.memo = none ∧ s.tongue n.scope = locale) →
        (∀ n ∈ b.nodes, n.memo = none ∧ t.tongue n.scope = locale) →
        ∀ force force', Check.Alike (fun now now' => a.isTimeless = true ∨ now = now')
          (a.compile force s).1.1 (b.compile force' t).1.1) := by
  refine ⟨⟨essence_of_digest hapart, digest_eq_of_bare⟩, ?_⟩
  intro h s t locale hs ht ha hb force force'
  have hessence := essence_of_digest hapart h
  have hx := compile_settles hs (keeps_cold fun n hn => (ha n hn).1) force
  have hy := compile_settles ht (keeps_cold fun n hn => (hb n hn).1) force'
  have huniform : a.Uniform s.tongue locale := fun n hn => congrArg Locale.resolve (ha n hn).2
  have huniform' : b.Uniform t.tongue locale := fun n hn => congrArg Locale.resolve (hb n hn).2
  exact alike_of_settles hx hy (audit_eq_of_bare _ hessence) fun now now' hnow =>
    interpret_of_essence hessence huniform huniform' hnow

theorem digest_decides_described :
    let a := simple ⟨0⟩ "age" .equal (.ofInt 3)
    let b := a.setDescription (some "three years old")
    Digest.Apart (a.texts ++ b.texts) ∧ a.digest = b.digest ∧
      ∀ force force', Check.Alike (fun _ _ => True) (a.compile force {}).1.1
        (b.compile force' {}).1.1 := by
  intro a b
  have hapart : Digest.Apart (a.texts ++ b.texts) := by
    intro x hx y hy _
    have hall : ∀ z ∈ a.texts ++ b.texts, z = a.canonical.text := by
      intro z hz
      rw [show a.texts ++ b.texts = [a.canonical.text, a.canonical.text] from rfl] at hz
      simpa using hz
    rw [hall x hx, hall y hy]
  obtain ⟨hiff, halike⟩ := digest_decides hapart
  have hdigest : a.digest = b.digest := hiff.mpr rfl
  have hcold : ∀ r, r = a ∨ r = b → ∀ n ∈ r.nodes,
      n.memo = none ∧ ({} : Session).tongue n.scope = "en-US" := by
    rintro r (rfl | rfl) n hn <;> rw [List.mem_singleton.mp hn] <;> exact ⟨rfl, rfl⟩
  refine ⟨hapart, hdigest, fun force force' => ?_⟩
  have h := halike hdigest {} {} "en-US" Session.reached_empty.sound Session.reached_empty.sound
    (hcold a (.inl rfl)) (hcold b (.inr rfl)) force force'
  have htimeless : a.isTimeless = true := by decide
  simpa only [htimeless, true_or] using h

end Rule

end Verdict
