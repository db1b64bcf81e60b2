import BearerGate.Proofs.Run.SlotStep

namespace BearerGate

open Cache

instance Request.decidableEvicts (rules : GateRules) : (r : Request) → (i : Text) → Decidable (r.Evicts rules i)
  | .evict url, i => inferInstanceAs (Decidable (canonical rules.trust (canonical rules.trust url) = i))
  | .forget url, i => inferInstanceAs (Decidable (canonical rules.trust url = i))
  | .get _, _ | .refresh _, _ | .sweep _ _, _ | .verify _, _ | .authenticate _, _ =>
    inferInstanceAs (Decidable False)

instance Action.decidableEvicts (rules : GateRules) : (a : Action) → (i : Text) → Decidable (a.Evicts rules i)
  | .call r, i => inferInstanceAs (Decidable (r.Evicts rules i))
  | .pass _, _ | .land _ _, _ | .resume _, _ => inferInstanceAs (Decidable False)

theorem Record.build_spans {issuer : Text} {d : Document} {p : CachePolicy} {generation : Nat} {now : Millis}
    {r : Record} (h : build issuer d p generation now = .ok r) :
    r.fetchedAt = now ∧ r.expiresAt = r.fetchedAt + p.freshness d.maxAge ∧
      r.usableUntil = r.expiresAt + p.grace := by
  obtain ⟨-, -, rfl⟩ := build_eq_ok_iff.mp h
  exact ⟨rfl, rfl, rfl⟩

namespace Run

variable {rules : GateRules} {s : Run} {l : List Action} {a : Action} {i : Text} {e : Ending}
  {recent : List Ending}

namespace Ending

def record? (p : CachePolicy) (i : Text) (e : Ending) : Option Record :=
  match e.outcome p i with
  | .ok r => some r
  | .error _ => none

def failure? (p : CachePolicy) (i : Text) (e : Ending) : Option Failure :=
  match e.outcome p i with
  | .ok _ => none
  | .error f => some ⟨e.time + p.retryInterval, f⟩

theorem outcome_of_record? {p : CachePolicy} {r : Record} (h : e.record? p i = some r) :
    e.outcome p i = .ok r := by
  rw [record?] at h
  split at h
  · rename_i ho
    rw [ho, Option.some.inj h]
  · cases h

end Ending

/-- What happens to the issuer: a fetch of it ends, or it is evicted. -/
inductive Event
  | ended (e : Ending)
  | evicted

def eventsBy (rules : GateRules) (i : Text) (s : Run) (a : Action) : List Event :=
  if a.Evicts rules i then [.evicted] else (endingBy? i s a).toList.map .ended

def history (rules : GateRules) (i : Text) : Run → List Action → List Event := trace rules (eventsBy rules i)

def Event.recall : List Ending → Event → List Ending
  | l, .ended e => e :: l
  | _, .evicted => []

/-- The fetches that have ended since the last eviction, the last one first. -/
def sinceEviction (h : List Event) : List Ending := h.foldl Event.recall []

theorem sinceEviction_evicted (h : List Event) : sinceEviction (h ++ [.evicted]) = [] := by
  simp [sinceEviction, Event.recall]

theorem sinceEviction_ended (h : List Event) (l : List Ending) :
    sinceEviction (h ++ l.map .ended) = l.reverse ++ sinceEviction h := by
  induction l using List.reverseRecOn with
  | nil => simp
  | append_singleton l e ih =>
      rw [sinceEviction] at ih ⊢
      rw [List.map_append, ← List.append_assoc, List.foldl_append, ih]
      simp [Event.recall]

/-- The record is the last one that one of the fetches has brought, and a failure is remembered if the last of
them has failed. -/
structure Recalls (p : CachePolicy) (i : Text) (x : Slot) (recent : List Ending) : Prop where
  record : x.record = recent.findSome? (·.record? p i)
  failure : x.failure = recent.head?.bind (·.failure? p i)

theorem Recalls.arrive {p : CachePolicy} {x : Slot} (h : Recalls p i x recent) (e : Ending) :
    Recalls p i (x.arrive p e.time (e.outcome p i)) (e :: recent) := by
  cases ho : e.outcome p i with
  | ok r =>
      have hr : e.record? p i = some r := by rw [Ending.record?, ho]
      have hf : e.failure? p i = none := by rw [Ending.failure?, ho]
      constructor
      · rw [List.findSome?_cons, hr]
        rfl
      · rw [List.head?_cons, Option.bind_some, hf]
        rfl
  | error f =>
      have hr : e.record? p i = none := by rw [Ending.record?, ho]
      have hf : e.failure? p i = some ⟨e.time + p.retryInterval, f⟩ := by rw [Ending.failure?, ho]
      constructor
      · rw [List.findSome?_cons, hr]
        exact h.record
      · rw [List.head?_cons, Option.bind_some, hf]
        rfl

theorem history_concat (rules : GateRules) (i : Text) (s : Run) (l : List Action) (a : Action) :
    history rules i s (l ++ [a]) = history rules i s l ++ eventsBy rules i (after rules s l) a :=
  trace_concat s l a

theorem Recalls.step {h : List Event} (hc : s.gate.cache.Tracked)
    (hs : Recalls rules.policy i (s.gate.cache.slot i) (sinceEviction h)) (a : Action) :
    Recalls rules.policy i ((s.step rules a).gate.cache.slot i)
      (sinceEviction (h ++ eventsBy rules i s a)) := by
  obtain ⟨x, fetches, hx, -, hstep⟩ := exists_slotStep hc rules a i
  rw [hx]
  cases hstep with
  | stays ha he =>
      rw [eventsBy, if_neg ha, he, sinceEviction_ended]
      exact hs
  | departs w ha he hf hnone =>
      rw [eventsBy, if_neg ha, he, sinceEviction_ended]
      exact ⟨hs.record, hs.failure⟩
  | arrives e ha he ht hf =>
      rw [eventsBy, if_neg ha, he, sinceEviction_ended, ← ht]
      exact hs.arrive e
  | empties ha he =>
      rw [eventsBy, if_pos ha, sinceEviction_evicted]
      exact ⟨rfl, rfl⟩

theorem recalls_after (rules : GateRules) (epoch : Int) (l : List Action) (i : Text) :
    Recalls rules.policy i ((after rules { epoch := epoch } l).gate.cache.slot i)
      (sinceEviction (history rules i { epoch := epoch } l)) := by
  induction l using List.reverseRecOn with
  | nil => exact ⟨rfl, rfl⟩
  | append_singleton l a ih =>
      rw [after_concat, history_concat]
      exact ih.step (tracked_after .empty l) a

theorem record?_land_error {t : Ticket} {result : Except FetchFault Document} {f : FetchFault} (ht : s.InFlight t)
    (ho : outcome rules.policy s.now t.issuer s.gate.cache.generation result = .error f) (j : Text) :
    (s.step rules (.land t result)).gate.cache.record? j = s.gate.cache.record? j := by
  by_cases hj : j = t.issuer
  · subst hj
    rw [record?, slot_land_error ht ho]
    rfl
  · rw [record?, step_land ht, slot_land, if_neg hj]
    rfl

/-- The slot of an issuer is made up of what its fetches have brought since it was last evicted. The record was
built by the last of them that ended well, the failure is that of the last one if this failed, and a fetch that
fails changes nothing but the failure. -/
structure Folds (rules : GateRules) (epoch : Int) (l : List Action) (i : Text) : Prop where
  record : (after rules { epoch := epoch } l).gate.cache.record? i =
    (sinceEviction (history rules i { epoch := epoch } l)).findSome? (·.record? rules.policy i)
  failure : ((after rules { epoch := epoch } l).gate.cache.slot i).failure =
    (sinceEviction (history rules i { epoch := epoch } l)).head?.bind (·.failure? rules.policy i)
  built : ∀ r, (after rules { epoch := epoch } l).gate.cache.record? i = some r →
    ∃ later e earlier d, sinceEviction (history rules i { epoch := epoch } l) = later ++ e :: earlier ∧
      (∀ x ∈ later, x.record? rules.policy i = none) ∧ e.result = .ok d ∧
        Record.build i d rules.policy (e.drawn + 1) e.time = .ok r ∧ r.fetchedAt = e.time ∧
          r.expiresAt = r.fetchedAt + rules.policy.freshness d.maxAge ∧
            r.usableUntil = r.expiresAt + rules.policy.grace
  atomic : ∀ t result f, (after rules { epoch := epoch } l).InFlight t →
    outcome rules.policy (after rules { epoch := epoch } l).now t.issuer
      (after rules { epoch := epoch } l).gate.cache.generation result = .error f →
    (after rules { epoch := epoch } (l ++ [.land t result])).gate.cache.slot t.issuer =
        { (after rules { epoch := epoch } l).gate.cache.slot t.issuer with
          flight := none
          failure := some ⟨(after rules { epoch := epoch } l).now + rules.policy.retryInterval, f⟩ } ∧
      ∀ j, (after rules { epoch := epoch } (l ++ [.land t result])).gate.cache.record? j =
        (after rules { epoch := epoch } l).gate.cache.record? j

theorem folds (rules : GateRules) (epoch : Int) (l : List Action) (i : Text) : Folds rules epoch l i where
  record := (recalls_after rules epoch l i).record
  failure := (recalls_after rules epoch l i).failure
  built r hr := by
    rw [record?, (recalls_after rules epoch l i).record, List.findSome?_eq_some_iff] at hr
    obtain ⟨later, e, earlier, hsplit, he, hlater⟩ := hr
    have ho := Ending.outcome_of_record? he
    obtain ⟨d, hd, -⟩ := outcome_ok ho
    rw [Ending.outcome, hd] at ho
    exact ⟨later, e, earlier, d, hsplit, hlater, hd, ho, Record.build_spans ho⟩
  atomic t result f ht ho := by
    rw [after_concat]
    exact ⟨slot_land_error ht ho, record?_land_error ht ho⟩

end Run

end BearerGate
