import BearerGate.Gate.Call

namespace BearerGate

/-- A gate in time. Calls are numbered in the order in which they begin. Time is counted in
milliseconds from the start, which is at the Unix time `epoch`. -/
structure Run where
  epoch : Int
  now : Millis := 0
  gate : Gate := {}
  calls : List Call := []

/-- What may happen next: time passes, a call begins, a fetch ends with what the issuer gave, or a call
whose fetch has ended goes on. -/
inductive Action
  | pass (d : Millis)
  | call (r : Request)
  | land (t : Ticket) (result : Except FetchFault Document)
  | resume (id : Nat)

namespace Run

def unix (s : Run) : Int := s.epoch + (s.now / 1000 : Nat)

def pending? (s : Run) (id : Nat) : Option Pending := s.calls[id]?.bind Call.pending?

def result? (s : Run) (id : Nat) : Option Result := s.calls[id]?.bind Call.result?

/-- One action. Nothing happens when the fetch is not under way or the call has nothing to go on
with. -/
def step (rules : GateRules) (s : Run) : Action → Run
  | .pass d => { s with now := s.now + d }
  | .call r =>
    let (g, c) := s.gate.start rules s.now s.unix r
    { s with gate := g, calls := s.calls ++ [c] }
  | .land t result =>
    if t ∈ s.gate.cache.flights.map Prod.fst then
      { s with gate.cache := s.gate.cache.land rules.policy s.now t result }
    else s
  | .resume id =>
    match s.pending? id with
    | none => s
    | some p =>
      match s.gate.cache.outcome? p.ticket with
      | none => s
      | some o =>
        let (g, c) := s.gate.proceed rules s.now s.unix o p
        { s with gate := g, calls := s.calls.set id c }

def after (rules : GateRules) (s : Run) (l : List Action) : Run := l.foldl (step rules) s

def Reachable (rules : GateRules) (s : Run) : Prop :=
  ∃ epoch l, s = after rules { epoch := epoch } l

end Run

end BearerGate
