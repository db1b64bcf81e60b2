import BearerGate.Issuer.Record

namespace BearerGate

abbrev Outcome := Except FetchFault Record

/-- A failed fetch is remembered until another attempt may start. -/
structure Failure where
  retryAt : Millis
  fault : FetchFault
  deriving DecidableEq, Repr

/-- What the cache knows of one issuer. Its fetches are numbered from zero; `flight` is the number of
the one under way. -/
structure Slot where
  record : Option Record := none
  flight : Option Nat := none
  failure : Option Failure := none
  lastKeyMiss : Option Millis := none
  started : Nat := 0
  deriving DecidableEq, Repr

/-- What a caller is content with: any fresh record, or one newer than the record seen before. The
search for a missing key is throttled. -/
inductive Wanted
  | fresh
  | newer (seen : Nat)
  | keyMiss (seen : Nat)
  deriving DecidableEq, Repr

namespace Wanted

def isMetBy (w : Wanted) (r : Record) (now : Millis) : Bool :=
  match w with
  | fresh => r.isFresh now
  | newer seen | keyMiss seen => seen < r.generation

def isKeyMiss : Wanted → Bool
  | keyMiss _ => true
  | _ => false

end Wanted

namespace Slot

def pendingFault? (s : Slot) (now : Millis) : Option FetchFault :=
  match s.failure with
  | some f => if now < f.retryAt then some f.fault else none
  | none => none

def isThrottled (s : Slot) (interval now : Millis) : Bool :=
  match s.lastKeyMiss with
  | some t => now < t + interval
  | none => false

/-- What is answered without a fetch when none is under way, if anything. -/
def settled? (s : Slot) (p : CachePolicy) (now : Millis) (w : Wanted) : Option Outcome :=
  match s.record with
  | some r =>
    if w.isMetBy r now || (w.isKeyMiss && s.isThrottled p.minRefreshInterval now) then some (.ok r)
    else (s.pendingFault? now).map .error
  | none => (s.pendingFault? now).map .error

def depart (s : Slot) (now : Millis) (w : Wanted) : Slot :=
  { s with
    flight := some s.started
    started := s.started + 1
    lastKeyMiss := if w.isKeyMiss then some now else s.lastKeyMiss }

/-- A fetch ends. Only a success replaces the record, and it clears the failure. -/
def arrive (s : Slot) (p : CachePolicy) (now : Millis) (o : Outcome) : Slot :=
  match o with
  | .ok r => { s with flight := none, record := some r, failure := none }
  | .error f => { s with flight := none, failure := some ⟨now + p.retryInterval, f⟩ }

/-- Forgets everything but a fetch that is under way. -/
def evict (s : Slot) : Slot := { s with record := none, failure := none, lastKeyMiss := none }

end Slot

end BearerGate
