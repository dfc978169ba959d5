import Verdict.Cache
import Verdict.Path.Basic
import Verdict.Rule.Comparison
import Verdict.Pattern.Basic

/-!
# Scopes and sessions

Rules that are compiled together share a scope: a cache of paths, a cache of patterns and the
locale that numbers are written in unless a step names another. A session holds the scopes that
have been opened and hands out identities.
-/

namespace Verdict

/-- What rules that are compiled together share. -/
structure Scope where
  paths : Cache Path := {}
  patterns : Cache Pattern := {}
  locale : String := "en-US"

structure ScopeId where
  index : Nat
  deriving DecidableEq

/-- All scopes, and the next identity to hand out. -/
structure Session where
  scopes : Array Scope := #[]
  fresh : Nat := 0

/-- Work that may change the session; changes made before a fault stay. -/
abbrev Work := ExceptT Fault (StateM Session)

namespace Session

def scope (s : Session) (id : ScopeId) : Scope :=
  s.scopes.getD id.index {}

def setScope (s : Session) (id : ScopeId) (scope : Scope) : Session :=
  { s with scopes := s.scopes.setIfInBounds id.index scope }

def openScope (s : Session) (scope : Scope) : ScopeId × Session :=
  (⟨s.scopes.size⟩, { s with scopes := s.scopes.push scope })

end Session

namespace Scope

def bounded (capacity : Option Nat) (locale : String) : Scope :=
  { paths := { capacity }, patterns := { capacity }, locale }

end Scope

namespace Work

def fresh : Work Nat :=
  fun s => (.ok s.fresh, { s with fresh := s.fresh + 1 })

def path (id : ScopeId) (text : String) : Work Path :=
  fun s =>
    let scope := s.scope id
    let (result, paths, fresh) := scope.paths.fetch Path.compile text s.fresh
    (result.map (·.value), { s.setScope id { scope with paths } with fresh })

def pattern (id : ScopeId) (text : String) : Work Pattern :=
  fun s =>
    let scope := s.scope id
    let (result, patterns, fresh) := scope.patterns.fetch Pattern.buildDelimited text s.fresh
    (result.map (·.value), { s.setScope id { scope with patterns } with fresh })

def locale (id : ScopeId) : Work String :=
  fun s => (.ok (s.scope id).locale, s)

end Work

end Verdict
