import BearerGate.Gate.Verify

namespace BearerGate

/-- What is asked of the gate. A sweep refreshes the records that expire within the horizon and visits
the issuers of `order` first; `forget` drops a record and leaves the engine alone. -/
inductive Request
  | get (url : Text)
  | refresh (seen : Record)
  | sweep (horizon : Millis) (order : List Text)
  | verify (token : Text)
  | authenticate (token : Text)
  | evict (url : Text)
  | forget (url : Text)
  deriving DecidableEq, Repr

inductive Result
  | record (a : Except AuthFault Record)
  | refreshed (count : Nat)
  | verdict (v : Verdict)
  | evicted (had : Bool)

inductive Pending
  | get (t : Ticket)
  | refresh (t : Ticket)
  | sweep (t : Ticket) (rest : List Cache.Due) (count : Nat)
  | attempt (a : Gate.Attempt) (counted : Bool)
  deriving DecidableEq, Repr

namespace Pending

def ticket : Pending → Ticket
  | get t | refresh t | sweep t _ _ => t
  | attempt a _ => a.ticket

def waits : Pending → Nat
  | get _ | refresh _ => 1
  | sweep _ rest _ => rest.length + 1
  | attempt a _ =>
    match a.phase with
    | .lookup => 2
    | .refresh => 1

end Pending

inductive Call
  | waiting (p : Pending)
  | ended (r : Result)

namespace Call

def pending? : Call → Option Pending
  | waiting p => some p
  | ended _ => none

def result? : Call → Option Result
  | waiting _ => none
  | ended r => some r

end Call

def Cache.arrange : List Text → List Cache.Due → List Cache.Due
  | [], l => l
  | i :: r, l => l.filter (·.issuer = i) ++ arrange r (l.filter (·.issuer ≠ i))

namespace Gate

def ofLookup (g : Gate) : Cache × Reply (Except AuthFault Record) → (Ticket → Pending) → Gate × Call
  | (c, .done a), _ => ({ g with cache := c }, .ended (.record a))
  | (c, .wait t), pending => ({ g with cache := c }, .waiting (pending t))

def ofSweep (g : Gate) : Cache × Cache.Sweep → Gate × Call
  | (c, .done n) => ({ g with cache := c }, .ended (.refreshed n))
  | (c, .wait t rest n) => ({ g with cache := c }, .waiting (.sweep t rest n))

def ofProgress (counted : Bool) : Gate × Progress → Gate × Call
  | (g, .wait a) => (g, .waiting (.attempt a counted))
  | (g, .done v) =>
    (if counted then { g with attempts := g.attempts.count v } else g, .ended (.verdict v))

def start (rules : GateRules) (now : Millis) (unix : Int) (g : Gate) : Request → Gate × Call
  | .get url => g.ofLookup (g.cache.get rules.cache now url) .get
  | .refresh seen => g.ofLookup (g.cache.refresh rules.cache now seen) .refresh
  | .sweep horizon order =>
    g.ofSweep (g.cache.sweep rules.cache now (Cache.arrange order (g.cache.due (now + horizon))) 0)
  | .verify token => ofProgress false (g.verify rules now unix token)
  | .authenticate token => ofProgress true (g.verify rules now unix token)
  | .evict url =>
    let (g, had) := g.evict rules url
    (g, .ended (.evicted had))
  | .forget url =>
    let (c, had) := g.cache.evict rules.trust url
    ({ g with cache := c }, .ended (.evicted had))

def proceed (rules : GateRules) (now : Millis) (unix : Int) (o : Outcome) (g : Gate) :
    Pending → Gate × Call
  | .get t =>
    let (c, a) := g.cache.finishGet now t.issuer o
    ({ g with cache := c }, .ended (.record a))
  | .refresh _ => (g, .ended (.record (Cache.finishRefresh o)))
  | .sweep _ rest n => g.ofSweep (g.cache.resumeSweep rules.cache now o rest n)
  | .attempt a counted => ofProgress counted (g.resume rules now unix a o)

end Gate

end BearerGate
