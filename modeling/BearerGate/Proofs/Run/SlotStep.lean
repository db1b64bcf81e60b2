import BearerGate.Proofs.Run.Trace

namespace BearerGate

open Cache

namespace Cache

variable {p : CachePolicy} {now : Millis} {c c' : Cache}

theorem slot_evict (trust : TrustPolicy) (url : Text) (c : Cache) (i : Text) :
    (c.evict trust url).1.slot i = if canonical trust url = i then (c.slot i).evict else c.slot i := by
  simp only [evict]
  split
  · rename_i hnone
    split
    · rename_i hi
      -- A slot that is not there is as good as an empty one.
      rw [slot, ← hi, hnone]
      rfl
    · rfl
  · rename_i s hs
    rw [slot_setSlot]
    by_cases hi : i = canonical trust url
    · rw [if_pos hi, if_pos hi.symm, slot, hi, hs, Option.getD_some]
    · rw [if_neg hi, if_neg (Ne.symm hi)]

theorem flights_evict (trust : TrustPolicy) (url : Text) (c : Cache) :
    (c.evict trust url).1.flights = c.flights := by
  simp only [evict]
  split <;> rfl

theorem asks_cases (h : Asks p now c c') (i : Text) :
    (c'.slot i = c.slot i ∧ c'.flights.filter (·.1.issuer = i) = c.flights.filter (·.1.issuer = i)) ∨
      ∃ w, (c.slot i).flight = none ∧ (c.slot i).settled? p now w = none ∧
        c'.slot i = (c.slot i).depart now w ∧
        c'.flights.filter (·.1.issuer = i) =
          c.flights.filter (·.1.issuer = i) ++ [(⟨i, (c.slot i).started⟩, now)] := by
  induction h with
  | refl => exact .inl ⟨rfl, rfl⟩
  | tail _ h ih =>
      cases h with
      | touch j =>
          rw [slot_touch]
          exact ih
      | count t => exact ih
      | evict j hj => exact hj.elim
      | depart j w hf hs =>
          rw [slot_depart, Cache.depart, List.filter_append]
          by_cases hj : i = j
          · subst hj
            rcases ih with ⟨hslot, hflights⟩ | ⟨v, -, -, hslot, -⟩
            · rw [hslot] at hf hs ⊢
              refine .inr ⟨w, hf, hs, if_pos rfl, ?_⟩
              simp [hflights]
            · -- The fetch that was started is under way.
              rw [hslot] at hf
              cases hf
          · rw [if_neg hj]
            simpa [setSlot, Ne.symm hj] using ih

end Cache

namespace Run

variable {rules : GateRules} {s : Run} {a : Action} {i : Text}

theorem asks_call {r : Request} (hr : ∀ i, ¬r.Evicts rules i) :
    Asks rules.policy s.now s.gate.cache (s.step rules (.call r)).gate.cache := by
  have hevicts : r.Evicts rules = fun _ => False := funext fun i => eq_false (hr i)
  rw [Asks, ← hevicts]
  exact Gate.start_changes r s.gate

/-- The end of a fetch: when it was, how many documents had come in before, and what the issuer gave. -/
structure Ending where
  time : Millis
  drawn : Nat
  result : Except FetchFault Document

def Ending.outcome (p : CachePolicy) (i : Text) (e : Ending) : Outcome :=
  Cache.outcome p e.time i e.drawn e.result

def endingBy? (i : Text) (s : Run) : Action → Option Ending
  | .land t result =>
    if t.issuer = i ∧ s.InFlight t then some ⟨s.now, s.gate.cache.generation, result⟩ else none
  | _ => none

/-- What an action may make of the slot of the issuer, and the fetches of the issuer that it starts then. -/
inductive SlotStep (rules : GateRules) (s : Run) (i : Text) (a : Action) :
    Slot → List (Ticket × Millis) → Prop
  | stays (ha : ¬a.Evicts rules i) (he : endingBy? i s a = none) :
      SlotStep rules s i a (s.gate.cache.slot i) []
  | departs (w : Wanted) (ha : ¬a.Evicts rules i) (he : endingBy? i s a = none)
      (hf : (s.gate.cache.slot i).flight = none)
      (hs : (s.gate.cache.slot i).settled? rules.policy s.now w = none) :
      SlotStep rules s i a ((s.gate.cache.slot i).depart s.now w)
        [(⟨i, (s.gate.cache.slot i).started⟩, s.now)]
  | arrives (e : Ending) (ha : ¬a.Evicts rules i) (he : endingBy? i s a = some e) (ht : e.time = s.now)
      (hf : (s.gate.cache.slot i).flight ≠ none) :
      SlotStep rules s i a ((s.gate.cache.slot i).arrive rules.policy s.now (e.outcome rules.policy i)) []
  | empties (ha : a.Evicts rules i) (he : endingBy? i s a = none) :
      SlotStep rules s i a (s.gate.cache.slot i).evict []

theorem startedBy_issuer (rules : GateRules) (s : Run) (a : Action) (i : Text) :
    (startedBy rules s a).filter (·.1.issuer = i) =
      ((s.step rules a).gate.cache.flights.filter (·.1.issuer = i)).filter fun f => ¬s.InFlight f.1 := by
  rw [startedBy, List.filter_filter, List.filter_filter]
  simp only [Bool.and_comm]

theorem SlotStep.of_asks (hc : s.gate.cache.Tracked) (ha : ¬a.Evicts rules i) (he : endingBy? i s a = none)
    (h : Asks rules.policy s.now s.gate.cache (s.step rules a).gate.cache) :
    SlotStep rules s i a ((s.step rules a).gate.cache.slot i)
      ((startedBy rules s a).filter (·.1.issuer = i)) := by
  have hold : (s.gate.cache.flights.filter (·.1.issuer = i)).filter (fun f => ¬s.InFlight f.1) = [] := by
    rw [List.filter_comm, filter_not_inFlight, List.filter_nil]
  rw [startedBy_issuer]
  rcases asks_cases h i with ⟨hslot, hflights⟩ | ⟨w, hf, hs, hslot, hflights⟩
  · rw [hslot, hflights, hold]
    exact .stays ha he
  · have hnew : ¬s.InFlight ⟨i, (s.gate.cache.slot i).started⟩ := hc.not_mem_flights hf
    rw [hslot, hflights, List.filter_append, hold, List.nil_append, List.filter_singleton]
    simp only [hnew, not_false_eq_true, decide_true]
    exact .departs w ha he hf hs

theorem startedBy_land (rules : GateRules) (s : Run) (t : Ticket) (result : Except FetchFault Document) :
    startedBy rules s (.land t result) = [] := by
  by_cases ht : s.InFlight t
  · rw [startedBy, step_land ht, List.filter_eq_nil_iff]
    intro f hf
    have hin : s.InFlight f.1 := List.mem_map_of_mem (List.mem_of_mem_filter hf)
    simp [hin]
  · exact startedBy_of_flights (by rw [step_land_of_not ht])

theorem slotStep_evict {r : Request} {url : Text} (hr : ∀ j, r.Evicts rules j ↔ canonical rules.trust url = j)
    (hcache : (s.step rules (.call r)).gate.cache = (s.gate.cache.evict rules.trust url).1) :
    SlotStep rules s i (.call r) ((s.step rules (.call r)).gate.cache.slot i)
      ((startedBy rules s (.call r)).filter (·.1.issuer = i)) := by
  rw [startedBy_of_flights (by rw [hcache, flights_evict]), hcache, slot_evict]
  by_cases hi : canonical rules.trust url = i
  · rw [if_pos hi]
    exact .empties ((hr i).mpr hi) rfl
  · rw [if_neg hi]
    exact .stays (fun he => hi ((hr i).mp he)) rfl

theorem slotStep_land (hc : s.gate.cache.Tracked) (t : Ticket) (result : Except FetchFault Document) :
    SlotStep rules s i (.land t result) ((s.step rules (.land t result)).gate.cache.slot i)
      ((startedBy rules s (.land t result)).filter (·.1.issuer = i)) := by
  rw [startedBy_land]
  by_cases ht : s.InFlight t
  · rw [step_land ht, slot_land]
    by_cases hi : t.issuer = i
    · subst hi
      rw [if_pos rfl]
      have hflight := (hc.flight_iff t).mp ht
      exact .arrives ⟨s.now, s.gate.cache.generation, result⟩ id (if_pos ⟨rfl, ht⟩) rfl (by simp [hflight])
    · rw [if_neg (Ne.symm hi)]
      exact .stays id (if_neg fun h => hi h.1)
  · rw [step_land_of_not ht]
    exact .stays id (if_neg fun h => ht h.2)

theorem slot_land_error {t : Ticket} {result : Except FetchFault Document} {f : FetchFault} (ht : s.InFlight t)
    (ho : outcome rules.policy s.now t.issuer s.gate.cache.generation result = .error f) :
    (s.step rules (.land t result)).gate.cache.slot t.issuer =
      { s.gate.cache.slot t.issuer with
        flight := none
        failure := some ⟨s.now + rules.policy.retryInterval, f⟩ } := by
  rw [step_land ht, slot_land, if_pos rfl, ho]
  rfl

theorem slotStep (hc : s.gate.cache.Tracked) (rules : GateRules) (a : Action) (i : Text) :
    SlotStep rules s i a ((s.step rules a).gate.cache.slot i)
      ((startedBy rules s a).filter (·.1.issuer = i)) := by
  cases a with
  | pass d => exact .of_asks hc id rfl .refl
  | land t result => exact slotStep_land hc t result
  | resume id =>
      refine .of_asks hc not_false rfl ?_
      rcases resume_cases rules s id with ⟨p, o, hp, ho⟩ | he
      · rw [step_resume hp ho]
        exact Gate.proceed_asks o p s.gate
      · rw [he]
  | call r =>
      cases r with
      | evict url => exact slotStep_evict (fun j => Iff.rfl) rfl
      | forget url => exact slotStep_evict (fun j => Iff.rfl) rfl
      | get | refresh | sweep | verify | authenticate =>
          exact .of_asks hc not_false rfl (asks_call fun _ => not_false)

theorem exists_slotStep (hc : s.gate.cache.Tracked) (rules : GateRules) (a : Action) (i : Text) :
    ∃ x fetches, (s.step rules a).gate.cache.slot i = x ∧
      (startedBy rules s a).filter (·.1.issuer = i) = fetches ∧ SlotStep rules s i a x fetches :=
  ⟨_, _, rfl, rfl, slotStep hc rules a i⟩

/-- A fetch starts when nothing settles what is asked of the slot of its issuer. -/
theorem departs_of_startedBy (hc : s.gate.cache.Tracked) {f : Ticket × Millis} (hf : f ∈ startedBy rules s a) :
    f = (⟨f.1.issuer, (s.gate.cache.slot f.1.issuer).started⟩, s.now) ∧
      (s.gate.cache.slot f.1.issuer).flight = none ∧
        ∃ w, (s.gate.cache.slot f.1.issuer).settled? rules.policy s.now w = none := by
  have hm : f ∈ (startedBy rules s a).filter (·.1.issuer = f.1.issuer) :=
    List.mem_filter.mpr ⟨hf, decide_eq_true rfl⟩
  obtain ⟨x, fetches, -, hfetches, hstep⟩ := exists_slotStep hc rules a f.1.issuer
  rw [hfetches] at hm
  cases hstep with
  | stays | arrives | empties => cases hm
  | departs w ha he hnone hs => exact ⟨List.mem_singleton.mp hm, hnone, w, hs⟩

end Run

end BearerGate
