import Verdict.Proofs.Operand.Meaning

/-!
# Names that operands read

An operand looks up the names that stand in it, at any depth, and no others.  So it finds the same
in all environments that agree on those.
-/

namespace Verdict

/-- Two environments bind some names alike: to the same value, or not at all. -/
def Environment.AgreeOn (names : List String) (env env' : Environment) : Prop :=
  ∀ name ∈ names, env.value? name = env'.value? name

namespace Environment

variable {names names' : List String} {env env' : Environment}

theorem AgreeOn.refl (names : List String) (env : Environment) : env.AgreeOn names env :=
  fun _ _ => rfl

theorem AgreeOn.mono (h : AgreeOn names env env') (hsubset : names' ⊆ names) :
    AgreeOn names' env env' :=
  fun name hname => h name (hsubset hname)

end Environment

namespace Operand

mutual
/-- The names of the variables that an operand looks up. -/
def reads : Operand → List String
  | ⟨origin, _⟩ => readsOrigin origin

def readsOrigin : Origin → List String
  | .env name => [name]
  | .range inner => reads inner
  | .between low high => readsBound low ++ readsBound high
  | .record | .literal _ | .path _ _ | .day _ => []

def readsBound : Option Operand → List String
  | none => []
  | some o => reads o
end

section Find

variable {kind : Kind} {locale : String} {now : Instant} {record : Json} {env env' : Environment}
  {names : List String}

mutual
/-- An operand finds the same in environments that agree on the names that it reads. -/
theorem find_of_agreeOn (h : env.AgreeOn names env') : (o : Operand) → o.reads ⊆ names →
    o.find kind locale now record env = o.find kind locale now record env'
  | ⟨origin, steps⟩, hreads => by
    rw [find, find, findOrigin_of_agreeOn h origin hreads]

theorem findOrigin_of_agreeOn (h : env.AgreeOn names env') : (o : Origin) →
    readsOrigin o ⊆ names →
    findOrigin kind locale now record env o = findOrigin kind locale now record env' o
  | .record, _ | .literal _, _ | .path _ _, _ | .day _, _ => rfl
  | .env name, hreads => by
    rw [findOrigin, findOrigin, h name (hreads List.mem_cons_self)]
  | .range inner, hreads => by
    rw [findOrigin, findOrigin, find_of_agreeOn h inner hreads]
  | .between low high, hreads => by
    rw [readsOrigin, List.append_subset] at hreads
    rw [findOrigin, findOrigin, findBound_of_agreeOn h low hreads.1,
      findBound_of_agreeOn h high hreads.2]

theorem findBound_of_agreeOn (h : env.AgreeOn names env') : (o : Option Operand) →
    readsBound o ⊆ names →
    findBound kind locale now record env o = findBound kind locale now record env' o
  | none, _ => rfl
  | some o, hreads => find_of_agreeOn h o hreads
end

end Find

end Operand

end Verdict
