import BearerGate.Cache.Call
import BearerGate.Key.Verify
import BearerGate.Principal

namespace BearerGate

structure GateRules where
  trust : TrustPolicy
  policy : CachePolicy
  validation : ValidationPolicy
  service : Identity
  deriving DecidableEq, Repr

namespace GateRules

def cache (r : GateRules) : CacheRules := ⟨r.trust, r.policy⟩

end GateRules

def CachePolicy.ofSettings (c : CacheSettings) : CachePolicy where
  defaultTtl := .ofSeconds c.defaultTtl
  minTtl := .ofSeconds c.minTtl
  maxTtl := .ofSeconds c.maxTtl
  grace := .ofSeconds c.grace
  retryInterval := .ofSeconds c.retryInterval
  fetchTimeout := .ofSeconds c.fetchTimeout
  minRefreshInterval := .ofSeconds c.minRefreshInterval

def GateRules.ofSettings (s : Settings) : Except Identity.Fault GateRules := do
  let service ← Identity.make s.service.space s.service.name
  return ⟨.ofSettings s.trust, .ofSettings s.cache, .ofSettings s.trust, service⟩

structure Attempts where
  accepted : Nat := 0
  rejected : List (Text × Nat) := []
  deriving DecidableEq, Repr

/-- The state of the gate: the cache, and the engine of each issuer that was seen, which is bound to
the issuer it was built for. -/
structure Gate where
  cache : Cache := {}
  engines : List (Text × TrustedIssuer) := []
  attempts : Attempts := {}

abbrev Verdict := Except Rejection Principal

def Attempts.count (a : Attempts) : Verdict → Attempts
  | .ok _ => { a with accepted := a.accepted + 1 }
  | .error r =>
    let reason := r.fault.reason
    { a with rejected := Assoc.set reason ((a.rejected.lookup reason).getD 0 + 1) a.rejected }

namespace Gate

def engine (rules : GateRules) (claimed : Text) (g : Gate) : Gate × Option TrustedIssuer :=
  match rules.trust.resolve? claimed with
  | none => (g, none)
  | some trusted =>
    match g.engines.lookup trusted.url with
    | some e => (g, some e)
    | none => ({ g with engines := g.engines ++ [(trusted.url, trusted)] }, some trusted)

def evict (rules : GateRules) (url : Text) (g : Gate) : Gate × Bool :=
  let i := Cache.canonical rules.trust url
  let had := (g.engines.lookup i).isSome
  let (cache, removed) := g.cache.evict rules.trust i
  ({ g with cache := cache, engines := Assoc.erase i g.engines }, had || removed)

end Gate

end BearerGate
