import BearerGate.Cache.Basic
import BearerGate.Gate.Fault

namespace BearerGate

namespace Tally

def hit (t : Tally) : Tally := { t with hits := t.hits + 1 }

def miss (t : Tally) : Tally := { t with misses := t.misses + 1 }

def stale (t : Tally) : Tally := { t with stales := t.stales + 1 }

def keyRefresh (t : Tally) : Tally := { t with keyRefreshes := t.keyRefreshes + 1 }

end Tally

structure CacheRules where
  trust : TrustPolicy
  policy : CachePolicy
  deriving DecidableEq, Repr

namespace Cache

/-- The end of a lookup that asked for a fetch. A record that is still usable stands in for a failed
one. -/
def finishGet (now : Millis) (i : Text) (o : Outcome) (c : Cache) :
    Cache × Except AuthFault Record :=
  match o with
  | .ok r => ({ c with tally := c.tally.miss }, .ok r)
  | .error f =>
    match (c.record? i).filter (·.isUsable now) with
    | some r => ({ c with tally := c.tally.stale }, .ok r)
    | none => (c, .error (.unreachable f))

/-- What is answered from the record alone: a fresh one, or a usable one while a failure pends. -/
def atHand? (now : Millis) (s : Slot) : Option (Record × (Tally → Tally)) :=
  match s.record with
  | some r =>
    if r.isFresh now then some (r, Tally.hit)
    else if r.isUsable now && (s.pendingFault? now).isSome then some (r, Tally.stale)
    else none
  | none => none

def get (rules : CacheRules) (now : Millis) (url : Text) (c : Cache) :
    Cache × Reply (Except AuthFault Record) :=
  match rules.trust.resolve? url with
  | none => (c, .done (.error (.untrusted url)))
  | some trusted =>
    let i := trusted.url
    let c := c.touch i
    match atHand? now (c.slot i) with
    | some (r, count) => ({ c with tally := count c.tally }, .done (.ok r))
    | none =>
      match c.request rules.policy now i .fresh with
      | (c, .wait t) => (c, .wait t)
      | (c, .done o) =>
        let (c, a) := finishGet now i o c
        (c, .done a)

def finishRefresh : Outcome → Except AuthFault Record
  | .ok r => .ok r
  | .error f => .error (.unreachable f)

/-- Refreshes an issuer after `seen` turned out to lack a key. -/
def refresh (rules : CacheRules) (now : Millis) (seen : Record) (c : Cache) :
    Cache × Reply (Except AuthFault Record) :=
  match (c.touch seen.issuer).request rules.policy now seen.issuer (.keyMiss seen.generation) with
  | (c, .wait t) => (c, .wait t)
  | (c, .done o) => (c, .done (finishRefresh o))

structure Due where
  issuer : Text
  generation : Nat
  deriving DecidableEq, Repr

def due (deadline : Millis) (c : Cache) : List Due :=
  c.slots.filterMap fun (i, s) =>
    match s.record with
    | some r => if r.expiresAt ≤ deadline then some ⟨i, r.generation⟩ else none
    | none => none

inductive Sweep
  | done (refreshed : Nat)
  | wait (t : Ticket) (rest : List Due) (refreshed : Nat)

def sweep (rules : CacheRules) (now : Millis) : List Due → Nat → Cache → Cache × Sweep
  | [], n, c => (c, .done n)
  | d :: rest, n, c =>
    match c.request rules.policy now d.issuer (.newer d.generation) with
    | (c, .wait t) => (c, .wait t rest n)
    | (c, .done (.ok _)) => sweep rules now rest (n + 1) c
    | (c, .done (.error _)) => sweep rules now rest n c

def resumeSweep (rules : CacheRules) (now : Millis) (o : Outcome) (rest : List Due) (n : Nat)
    (c : Cache) : Cache × Sweep :=
  match o with
  | .ok _ => sweep rules now rest (n + 1) c
  | .error _ => sweep rules now rest n c

end Cache

end BearerGate
