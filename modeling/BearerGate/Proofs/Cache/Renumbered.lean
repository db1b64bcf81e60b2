import BearerGate.Proofs.Cache.Frame
import BearerGate.Proofs.Cache.Windows
import Mathlib.Order.Monotone.Basic

namespace BearerGate

variable {f : Nat → Nat} {p : CachePolicy} {now : Millis} {r : Record} {i : Text}

/-- Generations are only compared, so whatever is done with a slot goes on in the same way when the generations
are renumbered. -/
def Record.renumber (f : Nat → Nat) (r : Record) : Record := { r with generation := f r.generation }

def Wanted.renumber (f : Nat → Nat) : Wanted → Wanted
  | .fresh => .fresh
  | .newer seen => .newer (f seen)
  | .keyMiss seen => .keyMiss (f seen)

def Record.Ranked (f : Nat → Nat) (r : Record) : Prop := ∀ n, f n < f r.generation ↔ n < r.generation

theorem Record.Ranked.isMetBy (h : r.Ranked f) (w : Wanted) (now : Millis) :
    (w.renumber f).isMetBy (r.renumber f) now = w.isMetBy r now := by
  cases w with
  | fresh => rfl
  | newer seen | keyMiss seen => exact decide_eq_decide.mpr (h seen)

theorem Wanted.isKeyMiss_renumber (f : Nat → Nat) (w : Wanted) : (w.renumber f).isKeyMiss = w.isKeyMiss := by
  cases w <;> rfl

namespace Slot

variable {s : Slot}

def renumber (f : Nat → Nat) (s : Slot) : Slot := { s with record := s.record.map (·.renumber f) }

def Ranked (f : Nat → Nat) (s : Slot) : Prop := ∀ r, s.record = some r → r.Ranked f

theorem settled?_renumber (h : s.Ranked f) (p : CachePolicy) (now : Millis) (w : Wanted) :
    (s.renumber f).settled? p now (w.renumber f) = (s.settled? p now w).map (·.map (·.renumber f)) := by
  have hfault : (s.renumber f).pendingFault? now = s.pendingFault? now := rfl
  have hthrottled (d : Millis) : (s.renumber f).isThrottled d now = s.isThrottled d now := rfl
  cases hr : s.record with
  | none =>
      have hr' : (s.renumber f).record = none := by rw [renumber, hr, Option.map_none]
      simp only [settled?, hr, hr', hfault, Option.map_map]
      rfl
  | some r =>
      have hr' : (s.renumber f).record = some (r.renumber f) := by rw [renumber, hr, Option.map_some]
      simp only [settled?, hr, hr', hfault, hthrottled, (h r hr).isMetBy, Wanted.isKeyMiss_renumber]
      split
      · rfl
      · rw [Option.map_map]
        rfl

theorem depart_renumber (f : Nat → Nat) (s : Slot) (now : Millis) (w : Wanted) :
    (s.renumber f).depart now (w.renumber f) = (s.depart now w).renumber f := by
  simp only [depart, renumber, Wanted.isKeyMiss_renumber]

theorem arrive_renumber (f : Nat → Nat) (s : Slot) (p : CachePolicy) (now : Millis) (o : Outcome) :
    (s.renumber f).arrive p now (o.map (·.renumber f)) = (s.arrive p now o).renumber f := by
  cases o <;> rfl

end Slot

namespace Cache

theorem atHand?_renumber (f : Nat → Nat) (now : Millis) (s : Slot) :
    atHand? now (s.renumber f) = (atHand? now s).map (Prod.map (·.renumber f) id) := by
  have hfault : (s.renumber f).pendingFault? now = s.pendingFault? now := rfl
  cases hr : s.record with
  | none =>
      have hr' : (s.renumber f).record = none := by rw [Slot.renumber, hr, Option.map_none]
      simp only [atHand?, hr, hr', Option.map_none]
  | some r =>
      have hr' : (s.renumber f).record = some (r.renumber f) := by rw [Slot.renumber, hr, Option.map_some]
      have hfresh : (r.renumber f).isFresh now = r.isFresh now := rfl
      have husable : (r.renumber f).isUsable now = r.isUsable now := rfl
      simp only [atHand?, hr, hr', hfault, hfresh, husable]
      split
      · rfl
      · split <;> rfl

theorem outcome_renumber {generation : Nat} {result : Except FetchFault Document}
    (h : drawn result = 1 → f (generation + 1) = f generation + 1) (p : CachePolicy) (now : Millis) (i : Text) :
    outcome p now i (f generation) result = (outcome p now i generation result).map (·.renumber f) := by
  cases result with
  | error e => rfl
  | ok d =>
      rw [outcome, ← h rfl, outcome, Record.build, Record.build]
      split
      · rfl
      · split <;> rfl

/-- What the first cache holds of the issuer is all that the second one holds, with the generations
renumbered. -/
structure Mirror (f : Nat → Nat) (i : Text) (c d : Cache) : Prop where
  slot? : d.slot? i = (c.slot? i).map (·.renumber f)
  flights : d.flights = c.flights.filter (·.1.issuer = i)
  outcome? : ∀ t, t.issuer = i → d.outcome? t = (c.outcome? t).map (·.map (·.renumber f))
  generation : d.generation = f c.generation
  ranked : (c.slot i).Ranked f

section Mirror

variable {c c' d : Cache}

theorem Mirror.slot (h : Mirror f i c d) : d.slot i = (c.slot i).renumber f := by
  rw [Cache.slot, h.slot?, Cache.slot]
  cases c.slot? i <;> rfl

theorem Mirror.record? (h : Mirror f i c d) : d.record? i = (c.record? i).map (·.renumber f) := by
  rw [Cache.record?, h.slot]
  rfl

theorem Mirror.mem_flights (h : Mirror f i c d) {t : Ticket} (ht : t.issuer = i) :
    t ∈ d.flights.map Prod.fst ↔ t ∈ c.flights.map Prod.fst := by
  rw [h.flights, List.mem_map, List.mem_map]
  constructor
  · rintro ⟨x, hx, rfl⟩
    exact ⟨x, List.mem_of_mem_filter hx, rfl⟩
  · rintro ⟨x, hx, rfl⟩
    exact ⟨x, List.mem_filter.mpr ⟨hx, by simpa using ht⟩, rfl⟩

theorem Mirror.frame (h : Mirror f i c d) (hs : SameFor i c c') (hg : f c'.generation = f c.generation) :
    Mirror f i c' d where
  slot? := by rw [hs.slot?, h.slot?]
  flights := by rw [hs.flights, h.flights]
  outcome? t ht := by rw [hs.outcome? t ht, h.outcome? t ht]
  generation := by rw [hg, h.generation]
  ranked := by
    rw [Cache.slot, hs.slot?]
    exact h.ranked

theorem Mirror.count (h : Mirror f i c d) (t u : Tally) :
    Mirror f i { c with tally := t } { d with tally := u } :=
  ⟨h.slot?, h.flights, h.outcome?, h.generation, h.ranked⟩

theorem Mirror.setSlot (h : Mirror f i c d) {s : Slot} (hs : s.Ranked f) :
    Mirror f i (c.setSlot i s) (d.setSlot i (s.renumber f)) where
  slot? := by rw [slot?_setSlot_self, slot?_setSlot_self, Option.map_some]
  flights := h.flights
  outcome? := h.outcome?
  generation := h.generation
  ranked := by rwa [slot_setSlot_self]

theorem Mirror.touch (h : Mirror f i c d) : Mirror f i (c.touch i) (d.touch i) := by
  rw [Cache.touch, Cache.touch, h.slot]
  exact h.setSlot h.ranked

theorem Mirror.depart (h : Mirror f i c d) (now : Millis) (w : Wanted) :
    Mirror f i (c.depart now i w) (d.depart now i (w.renumber f)) := by
  have hset := h.setSlot (s := (c.slot i).depart now w) h.ranked
  rw [← Slot.depart_renumber, ← h.slot] at hset
  refine ⟨hset.slot?, ?_, hset.outcome?, hset.generation, hset.ranked⟩
  rw [Cache.depart, Cache.depart, List.filter_append, ← h.flights, h.slot]
  simp [Slot.renumber]

def Echoes {ε : Type} (f : Nat → Nat) (i : Text) (x y : Cache × Reply (Except ε Record)) : Prop :=
  Mirror f i x.1 y.1 ∧ y.2 = x.2.map (·.map (·.renumber f))

theorem Mirror.request (h : Mirror f i c d) (p : CachePolicy) (now : Millis) {w w' : Wanted}
    (hw : w.renumber f = w') : Echoes f i (c.request p now i w) (d.request p now i w') := by
  obtain rfl := hw
  have hflight : (d.slot i).flight = (c.slot i).flight := by rw [h.slot, Slot.renumber]
  have hsettled : (d.slot i).settled? p now (w.renumber f) =
      ((c.slot i).settled? p now w).map (·.map (·.renumber f)) := by
    rw [h.slot, Slot.settled?_renumber h.ranked]
  have hstarted : (d.slot i).started = (c.slot i).started := by rw [h.slot, Slot.renumber]
  rcases request_cases p now i w c with ⟨n, hn, hr⟩ | ⟨hn, ⟨o, ho, hr⟩ | ⟨ho, hr⟩⟩
  · rw [hr]
    rw [hn] at hflight
    simp only [Cache.request, hflight]
    exact ⟨h, rfl⟩
  · rw [hr]
    rw [hn] at hflight
    rw [ho] at hsettled
    simp only [Cache.request, hflight, hsettled, Option.map_some]
    exact ⟨h, rfl⟩
  · rw [hr]
    rw [hn] at hflight
    rw [ho] at hsettled
    simp only [Cache.request, hflight, hsettled, Option.map_none]
    exact ⟨h.depart now w, congrArg (fun n => Reply.wait ⟨i, n⟩) hstarted⟩

theorem Mirror.finishGet (h : Mirror f i c d) (now : Millis) (o : Outcome) :
    Mirror f i (c.finishGet now i o).1 (d.finishGet now i (o.map (·.renumber f))).1 ∧
      (d.finishGet now i (o.map (·.renumber f))).2 = (c.finishGet now i o).2.map (·.renumber f) := by
  cases o with
  | ok r => exact ⟨h.count _ _, rfl⟩
  | error e =>
      have hfilter : (d.record? i).filter (·.isUsable now) =
          ((c.record? i).filter (·.isUsable now)).map (·.renumber f) := by
        rw [h.record?, Option.filter_map]
        rfl
      simp only [Cache.finishGet, Except.map, hfilter]
      cases (c.record? i).filter (·.isUsable now) with
      | none => exact ⟨h, rfl⟩
      | some r => exact ⟨h.count _ _, rfl⟩

theorem Echoes.finishRequest {x y : Cache × Reply Outcome} (h : Echoes f i x y) (now : Millis) :
    Echoes f i (finishRequest now i x) (finishRequest now i y) := by
  obtain ⟨c, a⟩ := x
  obtain ⟨d, b⟩ := y
  obtain ⟨hm, rfl⟩ := h
  cases a with
  | wait t => exact ⟨hm, rfl⟩
  | done o =>
      obtain ⟨hm, ho⟩ := hm.finishGet now o
      exact ⟨hm, congrArg Reply.done ho⟩

theorem Echoes.finishRefresh {x y : Cache × Reply Outcome} (h : Echoes f i x y) :
    Echoes f i (Prod.map id (Reply.map finishRefresh) x) (Prod.map id (Reply.map finishRefresh) y) := by
  obtain ⟨c, a⟩ := x
  obtain ⟨d, b⟩ := y
  obtain ⟨hm, rfl⟩ := h
  refine ⟨hm, ?_⟩
  cases a with
  | wait t => rfl
  | done o => cases o <;> rfl

theorem Mirror.get (h : Mirror f i c d) (rules : CacheRules) (now : Millis) {url : Text} {j : TrustedIssuer}
    (hj : rules.trust.resolve? url = some j) (hi : j.url = i) :
    Echoes f i (c.get rules now url) (d.get rules now url) := by
  obtain rfl := hi
  have hhand : atHand? now (d.slot j.url) = (atHand? now (c.slot j.url)).map (Prod.map (·.renumber f) id) := by
    rw [h.slot, atHand?_renumber]
  cases ha : atHand? now (c.slot j.url) with
  | none =>
      rw [ha] at hhand
      rw [get_eq rules now hj ha, get_eq rules now hj hhand]
      exact (h.touch.request rules.policy now rfl).finishRequest now
  | some x =>
      rw [ha] at hhand
      simp only [Cache.get, hj, slot_touch, ha, hhand, Option.map_some]
      exact ⟨h.touch.count _ _, rfl⟩

theorem Mirror.refresh (h : Mirror f i c d) (rules : CacheRules) (now : Millis) {seen : Record}
    (hi : seen.issuer = i) : Echoes f i (c.refresh rules now seen) (d.refresh rules now (seen.renumber f)) := by
  obtain rfl := hi
  rw [refresh_eq, refresh_eq]
  exact (h.touch.request rules.policy now rfl).finishRefresh

theorem Mirror.evict (h : Mirror f i c d) (trust : TrustPolicy) {url : Text} (hi : canonical trust url = i) :
    Mirror f i (c.evict trust url).1 (d.evict trust url).1 ∧ (d.evict trust url).2 = (c.evict trust url).2 := by
  simp only [Cache.evict, hi, h.slot?]
  cases c.slot? i with
  | none => exact ⟨h, rfl⟩
  | some s =>
      have hranked : s.evict.Ranked f := by
        intro r hr
        cases hr
      exact ⟨h.setSlot hranked, by simp [Slot.renumber]⟩

theorem ranked_of_succ {generation : Nat} (hmono : Monotone f) (hf : f (generation + 1) = f generation + 1)
    (hr : r.generation = generation + 1) : r.Ranked f := by
  intro n
  rw [hr]
  constructor
  · intro hlt
    by_contra hle
    exact Nat.not_lt_of_le (hmono (Nat.le_of_not_lt hle)) hlt
  · intro hlt
    rw [hf]
    exact Nat.lt_succ_of_le (hmono (Nat.le_of_lt_succ hlt))

theorem Mirror.land (h : Mirror f i c d) (hmono : Monotone f) {t : Ticket} (ht : t.issuer = i)
    {result : Except FetchFault Document} (hf : f (c.generation + drawn result) = f c.generation + drawn result)
    (p : CachePolicy) (now : Millis) : Mirror f i (c.land p now t result) (d.land p now t result) := by
  obtain rfl := ht
  have ho : outcome p now t.issuer d.generation result =
      (outcome p now t.issuer c.generation result).map (·.renumber f) := by
    rw [h.generation]
    exact outcome_renumber (fun hd => hd ▸ hf) p now t.issuer
  have hranked : ((c.slot t.issuer).arrive p now (outcome p now t.issuer c.generation result)).Ranked f := by
    cases hout : outcome p now t.issuer c.generation result with
    | error e => exact h.ranked
    | ok r =>
        intro r' hr'
        obtain rfl := Option.some.inj hr'
        obtain ⟨-, hg, hd⟩ := outcome_windowed hout
        exact ranked_of_succ hmono (hd ▸ hf) hg
  -- The generation that the second cache draws is the renumbered one because the document is of the issuer.
  have hset := h.setSlot hranked
  rw [← Slot.arrive_renumber, ← h.slot, ← ho] at hset
  refine ⟨hset.slot?, ?_, fun u hu => ?_, ?_, hset.ranked⟩
  · simp only [Cache.land, h.flights, List.filter_filter, Bool.and_comm]
  · have hold := h.outcome? u hu
    simp only [Cache.outcome?, Cache.land, List.lookup_append, ho] at hold ⊢
    rw [hold, Option.map_or]
    congr 1
    by_cases hut : u = t
    · simp [hut]
    · simp [Assoc.lookup_cons_ne hut]
  · simp only [Cache.land, h.generation, hf]

end Mirror

end Cache

end BearerGate
