import BearerGate.Issuer.Discovery
import BearerGate.Run

namespace BearerGate

structure Script where
  result : Except FetchFault Document
  delay : Millis := 0

structure Arrival where
  ticket : Ticket
  time : Millis
  result : Except FetchFault Document

/-- A task that sweeps the cache at intervals. It waits for each sweep to end, and it ends at the first
tick without a cache. -/
structure Sweeper where
  every : Millis
  next : Millis
  sweep : Option Nat := none
  ended : Bool := false
  deriving DecidableEq, Repr

def Script.absent (issuer : Text) : Script := { result := .error (.status issuer 404) }

/-- An issuer on a network answers at once, or only when the fetch is given up. -/
def Script.ofNetwork (net : Discovery.Network) (limit : Millis) (issuer : Text) : Script :=
  match (Discovery.fetch net limit issuer).2 with
  | .error (.timeout d) => ⟨.error (.timeout d), limit⟩
  | r => ⟨r, 0⟩

/-- A gate played against scripted issuers. While a call waits, time moves by multiples of the
stride. The issuers are listed in the order in which fetches of them started. -/
structure Rehearsal where
  rules : GateRules
  run : Run
  script : Text → Script := .absent
  fetched : List Text := []
  arrivals : List Arrival := []
  sweeper : Option Sweeper := none
  closed : Bool := false

namespace Rehearsal

def stride : Millis := 10

def setScript (issuer : Text) (x : Script) (s : Rehearsal) : Rehearsal :=
  { s with script := fun i => if i = issuer then x else s.script i }

def schedule (s : Rehearsal) (t : Ticket) (start : Millis) : Arrival :=
  let x := s.script t.issuer
  let limit := s.rules.policy.fetchTimeout
  if limit < x.delay then ⟨t, start + limit, .error (.timeout limit)⟩
  else ⟨t, start + x.delay, x.result⟩

def act (a : Action) (s : Rehearsal) : Rehearsal :=
  let run := s.run.step s.rules a
  let flights := run.gate.cache.flights
  let fresh := flights.filter fun f => !s.arrivals.any (·.ticket = f.1)
  { s with
    run := run
    fetched := s.fetched ++ fresh.map (·.1.issuer)
    arrivals := s.arrivals.filter (fun x => flights.any (·.1 = x.ticket)) ++
      fresh.map fun f => s.schedule f.1 f.2 }

def isDue (s : Rehearsal) (x : Arrival) : Bool := x.time ≤ s.run.now

def land (x : Arrival) (s : Rehearsal) : Rehearsal := s.act (.land x.ticket x.result)

def landDue (s : Rehearsal) : Rehearsal := (s.arrivals.filter s.isDue).foldl (fun s x => s.land x) s

def landIfDue (t : Ticket) (s : Rehearsal) : Rehearsal :=
  match s.arrivals.find? fun x => x.ticket = t && s.isDue x with
  | some x => s.land x
  | none => s

def pollFor (id : Nat) : Nat → Rehearsal → Rehearsal
  | 0, s => s
  | n + 1, s =>
    match s.run.pending? id with
    | none => s
    | some p =>
      let s := s.landIfDue p.ticket
      if (s.run.gate.cache.outcome? p.ticket).isSome then pollFor id n (s.act (.resume id)) else s

def poll (id : Nat) (s : Rehearsal) : Rehearsal :=
  pollFor id (((s.run.pending? id).map Pending.waits).getD 0) s

def pollAll (s : Rehearsal) : Rehearsal :=
  (List.range s.run.calls.length).foldl (fun s id => s.poll id) s

def beginCall (r : Request) (s : Rehearsal) : Rehearsal × Nat :=
  let id := s.run.calls.length
  ((s.act (.call r)).poll id, id)

def isOver (s : Rehearsal) (id : Nat) : Bool := (s.run.pending? id).isNone

def isIdle (s : Rehearsal) (w : Sweeper) : Bool := !w.ended && w.sweep.all s.isOver

def lateBy : Millis := 5

def Sweeper.tick (w : Sweeper) (now : Millis) : Sweeper :=
  { w with next := if w.next + lateBy < now then now + w.every else w.next + w.every }

def sweepIfDue (s : Rehearsal) : Rehearsal :=
  match s.sweeper with
  | none => s
  | some w =>
    if s.isIdle w && w.next ≤ s.run.now then
      if s.closed then { s with sweeper := some { w with ended := true } }
      else
        let (s', id) := s.beginCall (.sweep w.every [])
        { s' with sweeper := some { Sweeper.tick w s.run.now with sweep := some id } }
    else s

def settle (s : Rehearsal) : Rehearsal := s.landDue.pollAll.sweepIfDue

def nextEvent? (s : Rehearsal) : Option Millis :=
  (s.arrivals.map (·.time) ++
    ((s.sweeper.filter s.isIdle).map fun w => w.next).toList).min?

def leap (s : Rehearsal) : Option Millis :=
  s.nextEvent?.map fun t => stride * max 1 ((t - s.run.now + (stride - 1)) / stride)

def pass (d : Millis) (s : Rehearsal) : Rehearsal := s.act (.pass d)

def driveFor (ids : List Nat) : Nat → Rehearsal → Rehearsal
  | 0, s => s
  | n + 1, s =>
    if ids.all s.isOver then s
    else
      match s.leap with
      | some d => driveFor ids n (s.pass d).settle
      | none => s

/-- No fetch takes longer than the policy allows, and every leap takes at least a stride. -/
def leaps (ids : List Nat) (s : Rehearsal) : Nat :=
  ids.foldr (fun id n => ((s.run.pending? id).map Pending.waits).getD 0 + n) 0 *
    (s.rules.policy.fetchTimeout / stride + 2)

def drive (ids : List Nat) (s : Rehearsal) : Rehearsal := driveFor ids (s.leaps ids) s

/-- Begins calls in their order at one instant and waits for all of them. -/
def ask (l : List Request) (s : Rehearsal) : Rehearsal × List Result :=
  let (s, ids) := l.foldl (fun (s, ids) r =>
    let (s, id) := s.beginCall r
    (s, ids ++ [id])) (s, [])
  let s := s.drive ids
  (s, ids.filterMap s.run.result?)

def waitFor : Nat → Millis → Rehearsal → Rehearsal
  | 0, d, s => s.pass d
  | n + 1, d, s =>
    let e := min d (s.leap.getD d)
    if e = d then (s.pass d).settle else waitFor n (d - e) (s.pass e).settle

/-- Without a sweeper nobody looks at a fetch while time passes. -/
def wait (d : Millis) (s : Rehearsal) : Rehearsal :=
  match s.sweeper with
  | none => s.pass d
  | some _ => waitFor (d / stride + 1) d s

def sweepEvery (every : Millis) (s : Rehearsal) : Rehearsal :=
  { s with sweeper := some { every := every, next := s.run.now + every } }

def close (d : Millis) (s : Rehearsal) : Rehearsal × Option Bool :=
  let s := { s with closed := true }.wait d
  (s, s.sweeper.map fun w => w.ended)

/-- Begins a lookup, lets time pass without looking at it, evicts the issuer and looks it up again; the
first lookup is seen to its end last. -/
def evictBetween (url : Text) (d : Millis) (s : Rehearsal) : Rehearsal × List Result :=
  let (s, first) := s.beginCall (.get url)
  let s := s.wait d
  let (s, evicted) := s.beginCall (.forget url)
  let (s, second) := s.beginCall (.get url)
  let s := ((s.drive [second]).poll first).drive [first]
  (s, [first, evicted, second].filterMap s.run.result?)

def onNetwork (net : Discovery.Network) (rules : GateRules) (epoch : Int) : Rehearsal where
  rules := rules
  run := { epoch := epoch }
  script := .ofNetwork net rules.policy.fetchTimeout

def asked (net : Discovery.Network) (s : Rehearsal) : List Url :=
  s.fetched.flatMap fun i => (Discovery.fetch net s.rules.policy.fetchTimeout i).1

end Rehearsal

end BearerGate
