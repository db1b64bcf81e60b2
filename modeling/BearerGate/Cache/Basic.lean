import BearerGate.Assoc
import BearerGate.Cache.Slot
import BearerGate.Trust

namespace BearerGate

structure Ticket where
  issuer : Text
  number : Nat
  deriving DecidableEq, Repr

structure Tally where
  hits : Nat := 0
  misses : Nat := 0
  stales : Nat := 0
  stored : Nat := 0
  failed : Nat := 0
  keyRefreshes : Nat := 0
  deriving DecidableEq, Repr

/-- The trust material of the issuers, one slot for each canonical URL. Fetches under way are listed
with the time of their start, and the outcome of a fetch is kept for those who wait for it. -/
structure Cache where
  slots : List (Text × Slot) := []
  generation : Nat := 0
  flights : List (Ticket × Millis) := []
  landed : List (Ticket × Outcome) := []
  tally : Tally := {}

inductive Reply (α : Type)
  | done (a : α)
  | wait (t : Ticket)

namespace Cache

def slot? (c : Cache) (i : Text) : Option Slot := c.slots.lookup i

def slot (c : Cache) (i : Text) : Slot := (c.slot? i).getD {}

def setSlot (c : Cache) (i : Text) (s : Slot) : Cache := { c with slots := Assoc.set i s c.slots }

def touch (c : Cache) (i : Text) : Cache := c.setSlot i (c.slot i)

def record? (c : Cache) (i : Text) : Option Record := (c.slot i).record

def request (p : CachePolicy) (now : Millis) (i : Text) (w : Wanted) (c : Cache) :
    Cache × Reply Outcome :=
  let s := c.slot i
  match s.flight with
  | some n => (c, .wait ⟨i, n⟩)
  | none =>
    match s.settled? p now w with
    | some o => (c, .done o)
    | none =>
      let t : Ticket := ⟨i, s.started⟩
      ({ c.setSlot i (s.depart now w) with flights := c.flights ++ [(t, now)] }, .wait t)

/-- The outcome of a fetch of an issuer. Every document takes a generation, also one that is no
record. -/
def outcome (p : CachePolicy) (now : Millis) (i : Text) (generation : Nat) :
    Except FetchFault Document → Outcome
  | .ok d => Record.build i d p (generation + 1) now
  | .error f => .error f

def drawn : Except FetchFault Document → Nat
  | .ok _ => 1
  | .error _ => 0

def land (p : CachePolicy) (now : Millis) (t : Ticket) (result : Except FetchFault Document)
    (c : Cache) : Cache :=
  let o := outcome p now t.issuer c.generation result
  { c.setSlot t.issuer ((c.slot t.issuer).arrive p now o) with
    generation := c.generation + drawn result
    flights := c.flights.filter fun f => f.1 ≠ t
    landed := c.landed ++ [(t, o)]
    tally :=
      match o with
      | .ok _ => { c.tally with stored := c.tally.stored + 1 }
      | .error _ => { c.tally with failed := c.tally.failed + 1 } }

def outcome? (c : Cache) (t : Ticket) : Option Outcome := c.landed.lookup t

def canonical (trust : TrustPolicy) (url : Text) : Text :=
  match trust.resolve? url with
  | some i => i.url
  | none => url

def evict (trust : TrustPolicy) (url : Text) (c : Cache) : Cache × Bool :=
  let i := canonical trust url
  match c.slot? i with
  | none => (c, false)
  | some s => (c.setSlot i s.evict, s.record.isSome)

def peek? (trust : TrustPolicy) (url : Text) (c : Cache) : Option Record :=
  (trust.resolve? url).bind fun i => c.record? i.url

def size (c : Cache) : Nat := c.slots.countP fun s => s.2.record.isSome

def fetches (c : Cache) : Nat := c.slots.foldr (fun s n => s.2.started + n) 0

end Cache

end BearerGate
