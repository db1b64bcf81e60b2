import BearerGate.Proofs.Run.Alone
import BearerGate.Proofs.Run.Ask
import BearerGate.Proofs.Run.Returned
import BearerGate.Proofs.Run.SlotStep

namespace BearerGate

open Cache

namespace Cache

variable {p : CachePolicy} {now : Millis} {x : Slot} {f : Failure} {w : Wanted}

theorem pendingFault?_of_lt (hf : x.failure = some f) (hnow : now < f.retryAt) :
    x.pendingFault? now = some f.fault := by
  simp only [Slot.pendingFault?, hf, if_pos hnow]

/-- While a failure pends, all that is asked of the slot is settled, by the record or by the failure. -/
theorem settled?_of_pends {g : FetchFault} (hg : x.pendingFault? now = some g) (p : CachePolicy) (w : Wanted) :
    x.settled? p now w = some (.error g) ∨ ∃ r, x.record = some r ∧ x.settled? p now w = some (.ok r) := by
  simp only [Slot.settled?, hg, Option.map_some]
  split
  · rename_i r hr
    split
    · exact .inr ⟨r, hr, rfl⟩
    · exact .inl rfl
  · exact .inl rfl

theorem retryAt_le_of_settled? (hf : x.failure = some f) (hs : x.settled? p now w = none) :
    f.retryAt ≤ now := by
  by_contra hlt
  have hpends := pendingFault?_of_lt hf (Nat.lt_of_not_le hlt)
  rcases settled?_of_pends hpends p w with he | ⟨r, -, he⟩ <;> cases hs.symm.trans he

theorem Tracked.sweep_wait {rules : CacheRules} {c : Cache} (h : c.Tracked) {due rest : List Due} {t : Ticket}
    {n k : Nat} (ht : (c.sweep rules now due n).2 = .wait t rest k) :
    t ∈ (c.sweep rules now due n).1.flights.map Prod.fst := by
  induction due generalizing n c with
  | nil => cases ht
  | cons d due ih =>
      have hwait (u : Ticket) :
          (c.request rules.policy now d.issuer (.newer d.generation)).2 = .wait u → _ := h.request_wait
      have hc := h.changes (request_asks rules.policy now d.issuer (.newer d.generation) c)
      rw [sweep] at ht ⊢
      split at ht
      · rename_i hr
        rw [hr] at hwait
        obtain ⟨rfl, -, -⟩ := Sweep.wait.inj ht
        exact hwait _ rfl
      · rename_i hr
        rw [hr] at hc
        exact ih hc ht
      · rename_i hr
        rw [hr] at hc
        exact ih hc ht

end Cache

namespace Gate

variable {rules : GateRules} {now : Millis} {unix : Int} {g : Gate} {p : Pending}

theorem ofProgress_waiting {counted : Bool} {x : Gate × Progress} (h : (ofProgress counted x).2 = .waiting p) :
    ∃ a, x.2 = .wait a ∧ p = .attempt a counted := by
  obtain ⟨g, y⟩ := x
  cases y with
  | done v => cases h
  | wait a => exact ⟨a, rfl, (Call.waiting.inj h).symm⟩

theorem ofProgress_done {counted : Bool} {x : Gate × Progress} {v : Verdict} (h : x.2 = .done v) :
    (ofProgress counted x).2 = .ended (.verdict v) := by
  obtain ⟨g, y⟩ := x
  obtain rfl : y = .done v := h
  rfl

theorem ofProgress_wait {counted : Bool} {x : Gate × Progress} {a : Attempt} (h : x.2 = .wait a) :
    (ofProgress counted x).2 = .waiting (.attempt a counted) := by
  obtain ⟨g, y⟩ := x
  obtain rfl : y = .wait a := h
  rfl

theorem ofSweep_waiting {x : Cache × Sweep} (h : (g.ofSweep x).2 = .waiting p) :
    ∃ t rest n, x.2 = .wait t rest n ∧ p = .sweep t rest n := by
  obtain ⟨c, y⟩ := x
  cases y with
  | done n => cases h
  | wait t rest n => exact ⟨t, rest, n, rfl, (Call.waiting.inj h).symm⟩

theorem start_of_token? (rules : GateRules) (now : Millis) (unix : Int) (g : Gate) {r : Request} {raw : Text}
    (hr : r.token? = some raw) :
    ∃ counted, g.start rules now unix r = ofProgress counted (g.verify rules now unix raw) := by
  cases r with
  | verify token =>
      obtain rfl := Option.some.inj hr
      exact ⟨false, rfl⟩
  | authenticate token =>
      obtain rfl := Option.some.inj hr
      exact ⟨true, rfl⟩
  | get | refresh | sweep | evict | forget => cases hr

theorem start_wait (hc : g.cache.Tracked) {r : Request} (h : (g.start rules now unix r).2 = .waiting p) :
    p.ticket ∈ (g.start rules now unix r).1.cache.flights.map Prod.fst := by
  cases r with
  | get url =>
      obtain ⟨t, ht, rfl⟩ := ofLookup_waiting h
      rw [start, ofLookup_cache]
      exact hc.get_wait ht
  | refresh seen =>
      obtain ⟨t, ht, rfl⟩ := ofLookup_waiting h
      rw [start, ofLookup_cache]
      exact hc.refresh_wait ht
  | sweep horizon order =>
      obtain ⟨t, rest, n, ht, rfl⟩ := ofSweep_waiting h
      rw [start, ofSweep_cache]
      exact hc.sweep_wait ht
  | verify token | authenticate token =>
      obtain ⟨a, ha, rfl⟩ := ofProgress_waiting h
      rw [start, ofProgress_cache]
      exact verify_wait hc ha
  | evict url | forget url => cases h

theorem proceed_wait (hc : g.cache.Tracked) {q : Pending} {o : Outcome}
    (h : (g.proceed rules now unix o q).2 = .waiting p) :
    p.ticket ∈ (g.proceed rules now unix o q).1.cache.flights.map Prod.fst := by
  cases q with
  | get t | refresh t => cases h
  | sweep t rest n =>
      obtain ⟨u, rest', k, hu, rfl⟩ := ofSweep_waiting h
      rw [proceed, ofSweep_cache]
      cases o <;> exact hc.sweep_wait hu
  | attempt b counted =>
      obtain ⟨a, ha, rfl⟩ := ofProgress_waiting h
      rw [proceed, ofProgress_cache]
      exact (resume_wait hc ha).2.2

end Gate

namespace Run

variable {rules : GateRules} {s : Run} {l : List Action} {a : Action} {i : Text} {f : Failure} {t : Ticket}

theorem inFlight_of_pending? (hc : s.gate.cache.Tracked) {id : Nat} {p : Pending}
    (hp : (s.step rules a).pending? id = some p) :
    s.pending? id = some p ∨ (s.step rules a).InFlight p.ticket := by
  rcases calls_step_cases (pending?_eq_some_iff.mp hp) with hold | ⟨r, rfl, -, hk⟩ | ⟨q, o, rfl, hq, ho, hk⟩
  · exact .inl (pending?_eq_some_iff.mpr hold)
  · exact .inr (Gate.start_wait hc hk.symm)
  · rw [InFlight, step_resume hq ho]
    exact .inr (Gate.proceed_wait hc hk.symm)

theorem inFlight_call (hc : s.gate.cache.Tracked) {r : Request} {p : Pending}
    (hp : (s.step rules (.call r)).pending? s.calls.length = some p) : (s.step rules (.call r)).InFlight p.ticket := by
  rcases inFlight_of_pending? hc hp with hold | hin
  · exact absurd (lt_of_pending? hold) (Nat.lt_irrefl _)
  · exact hin

theorem inFlight_resume (hc : s.gate.cache.Tracked) {id : Nat} {p q : Pending} {o : Outcome}
    (hp : s.pending? id = some p) (ho : s.gate.cache.outcome? p.ticket = some o)
    (hq : (s.step rules (.resume id)).pending? id = some q) : (s.step rules (.resume id)).InFlight q.ticket := by
  rw [pending?_eq_some_iff, calls_resume hp ho] at hq
  rw [InFlight, step_resume hp ho]
  exact Gate.proceed_wait hc (Option.some.inj hq)

theorem ticket_issuer_of_verify (hs : s.Reachable rules) {raw : Text} {t : Unverified} {e j : TrustedIssuer}
    {a : Gate.Attempt} (ht : Unverified.parse raw = .ok t) (he : (s.gate.engine rules t.issuer).2 = some e)
    (hj : rules.trust.resolve? e.url = some j) (hv : (s.gate.verify rules s.now s.unix raw).2 = .wait a) :
    a.ticket.issuer = j.url := by
  have hsound : (s.gate.verify rules s.now s.unix raw).2.Sound rules (fun k o => ∀ r, o = .ok r → r.issuer = k)
      (fun claimed e => (s.gate.engine rules claimed).2 = some e) s.unix raw := by
    apply Gate.verify_sound _ fun _ _ he => he
    obtain ⟨epoch, l, rfl⟩ := hs
    apply (sound_after rules epoch l).cache.mono
    rintro k o hk r rfl
    exact hk.issuer
  rw [hv] at hsound
  obtain ⟨k, ⟨hparsed, hengine, hnamed⟩, hticket⟩ := hsound
  obtain rfl := Except.ok.inj (hparsed.symm.trans ht)
  obtain rfl := Option.some.inj (hengine.symm.trans he)
  obtain rfl := Option.some.inj (hnamed.symm.trans hj)
  split at hticket
  · exact hticket
  · obtain ⟨r, hr, -, hticket⟩ := hticket
    rw [hticket, hr r rfl]

/-- The failure of the last fetch of the issuer is remembered, and no other fetch has started. -/
structure Rests (s : Run) (i : Text) (f : Failure) : Prop where
  failure : (s.gate.cache.slot i).failure = some f
  idle : (s.gate.cache.slot i).flight = none

theorem Rests.step (h : s.Rests i f) (hc : s.gate.cache.Tracked) (hnow : s.now < f.retryAt)
    (ha : ¬a.Evicts rules i) : (s.step rules a).Rests i f := by
  obtain ⟨x, fetches, hx, -, hstep⟩ := exists_slotStep hc rules a i
  obtain ⟨hfailure, hidle⟩ := h
  cases hstep with
  | stays => exact ⟨hx ▸ hfailure, hx ▸ hidle⟩
  | departs w _ _ _ hs => exact absurd (retryAt_le_of_settled? hfailure hs) (Nat.not_le_of_lt hnow)
  | arrives e _ _ _ hf => exact absurd hidle hf
  | empties he => exact absurd he ha

theorem Rests.after (h : s.Rests i f) (hc : s.gate.cache.Tracked) (hl : ∀ a ∈ l, ¬a.Evicts rules i)
    (hnow : (after rules s l).now < f.retryAt) : (after rules s l).Rests i f := by
  induction l using List.reverseRecOn with
  | nil => exact h
  | append_singleton l a ih =>
      rw [after_concat] at hnow ⊢
      have hbefore : (Run.after rules s l).now < f.retryAt := by
        apply Nat.lt_of_le_of_lt _ hnow
        rw [(clock_step rules _ a).2]
        exact Nat.le_add_right _ _
      apply (ih (fun b hb => hl b (List.mem_append_left _ hb)) hbefore).step (tracked_after hc l) hbefore
      exact hl a (by simp)

theorem rests_land {result : Except FetchFault Document} {g : FetchFault} (ht : s.InFlight t)
    (ho : outcome rules.policy s.now t.issuer s.gate.cache.generation result = .error g) :
    (s.step rules (.land t result)).Rests t.issuer ⟨s.now + rules.policy.retryInterval, g⟩ := by
  constructor
  · rw [slot_land_error ht ho]
  · rw [slot_land_error ht ho]

theorem Rests.not_inFlight (h : s.Rests i f) (hc : s.gate.cache.Tracked) (ht : t.issuer = i) : ¬s.InFlight t :=
  hc.not_mem_flights (ht ▸ h.idle)

theorem retryAt_le_of_startedBy (h : s.Rests i f) (hc : s.gate.cache.Tracked) {x : Ticket × Millis}
    (hx : x ∈ startedBy rules s a) (hi : x.1.issuer = i) : f.retryAt ≤ x.2 := by
  obtain ⟨hf, -, w, hs⟩ := departs_of_startedBy hc hx
  subst hi
  rw [hf]
  exact retryAt_le_of_settled? h.failure hs

/-- What a call on the issuer may be told: its record, or that it is unreachable because of the failure. -/
def Consoled (s : Run) (i : Text) (f : Failure) (a : Except AuthFault Record) : Prop :=
  a = .error (.unreachable f.fault) ∨ ∃ r, s.gate.cache.record? i = some r ∧ a = .ok r

/-- An issuer whose last fetch has failed is left alone. Nothing starts a fetch of it or is made to wait for one,
and all calls on it are over at once. -/
structure BacksOff (rules : GateRules) (s : Run) (i : Text) (f : Failure) : Prop where
  failure : (s.gate.cache.slot i).failure = some f
  idle : ∀ t, t.issuer = i → ¬s.InFlight t
  starts : ∀ a, ∀ x ∈ startedBy rules s a, x.1.issuer ≠ i
  waits : ∀ a id p, (s.step rules a).pending? id = some p → p.ticket.issuer = i → s.pending? id = some p
  get : ∀ url j, rules.trust.resolve? url = some j → j.url = i →
    ∃ a, s.Ends rules (.get url) [] (.record a) ∧ s.Consoled i f a
  refresh : ∀ seen : Record, seen.issuer = i →
    ∃ a, s.Ends rules (.refresh seen) [] (.record a) ∧ s.Consoled i f a
  attempt : ∀ r raw t e j, Request.token? r = some raw → Unverified.parse raw = .ok t →
    (s.gate.engine rules t.issuer).2 = some e → rules.trust.resolve? e.url = some j → j.url = i →
    ∃ v, s.Ends rules r [] (.verdict v)

section BacksOff

variable (h : s.Rests i f) (hs : s.Reachable rules) (hnow : s.now < f.retryAt)

include h hs hnow

theorem Rests.starts {x : Ticket × Millis} (hx : x ∈ startedBy rules s a) : x.1.issuer ≠ i := by
  intro hi
  have hle := retryAt_le_of_startedBy h hs.tracked hx hi
  rw [(departs_of_startedBy hs.tracked hx).1] at hle
  exact Nat.not_le_of_lt hnow hle

theorem Rests.waits {id : Nat} {p : Pending} (hp : (s.step rules a).pending? id = some p)
    (hi : p.ticket.issuer = i) : s.pending? id = some p := by
  rcases inFlight_of_pending? hs.tracked hp with hold | hin
  · exact hold
  · by_cases hbefore : s.InFlight p.ticket
    · exact absurd hbefore (h.not_inFlight hs.tracked hi)
    · obtain ⟨x, hx, ht⟩ := List.mem_map.mp hin
      have hstarted : x ∈ startedBy rules s a :=
        List.mem_filter.mpr ⟨hx, decide_eq_true (ht ▸ hbefore)⟩
      exact absurd (ht ▸ hi) (h.starts hs hnow hstarted)

theorem Rests.not_wait {r : Request} {p : Pending}
    (hp : (s.step rules (.call r)).pending? s.calls.length = some p) : p.ticket.issuer ≠ i := by
  intro hi
  exact Nat.lt_irrefl _ (lt_of_pending? (h.waits hs hnow hp hi))

theorem Rests.get {url : Text} {j : TrustedIssuer} (hj : rules.trust.resolve? url = some j) (hi : j.url = i) :
    ∃ a, s.Ends rules (.get url) [] (.record a) ∧ s.Consoled i f a := by
  subst hi
  rcases get_settles rules.cache s.now s.gate.cache hj with
    ⟨r, count, ha, hget⟩ | ⟨-, ⟨t, ht, hget⟩ | ⟨g, hg, -, hget⟩⟩
  · exact ⟨_, ends_nil (get_done hget).2, .inr ⟨r, atHand?_record ha, rfl⟩⟩
  · exact absurd ht (h.not_wait hs hnow (get_wait hs.tracked hget).1)
  · obtain rfl := Option.some.inj (hg.symm.trans (pendingFault?_of_lt h.failure hnow))
    exact ⟨_, ends_nil (get_done hget).2, .inl rfl⟩

theorem Rests.refresh {seen : Record} (hi : seen.issuer = i) :
    ∃ a, s.Ends rules (.refresh seen) [] (.record a) ∧ s.Consoled i f a := by
  subst hi
  rcases refresh_cases rules.cache s.now seen s.gate.cache with ⟨n, -, hr⟩ | ⟨-, ⟨o, ho, hr⟩ | ⟨-, hr⟩⟩
  · exact absurd rfl (h.not_wait hs hnow (refresh_wait hr).2)
  · refine ⟨_, ends_nil (refresh_done hr).2, ?_⟩
    have hpends := pendingFault?_of_lt h.failure hnow
    rcases settled?_of_pends hpends rules.policy (.keyMiss seen.generation) with he | ⟨r, hrecord, he⟩
    · obtain rfl := Option.some.inj (ho.symm.trans he)
      exact .inl rfl
    · obtain rfl := Option.some.inj (ho.symm.trans he)
      exact .inr ⟨r, hrecord, rfl⟩
  · exact absurd rfl (h.not_wait hs hnow (refresh_wait hr).2)

theorem Rests.attempt {r : Request} {raw : Text} {t : Unverified} {e j : TrustedIssuer}
    (hr : r.token? = some raw) (ht : Unverified.parse raw = .ok t)
    (he : (s.gate.engine rules t.issuer).2 = some e) (hj : rules.trust.resolve? e.url = some j) (hi : j.url = i) :
    ∃ v, s.Ends rules r [] (.verdict v) := by
  obtain ⟨counted, hstart⟩ := Gate.start_of_token? rules s.now s.unix s.gate hr
  cases hv : (s.gate.verify rules s.now s.unix raw).2 with
  | done v =>
      refine ⟨v, ends_nil ?_⟩
      rw [result?_call, hstart, Gate.ofProgress_done hv]
      rfl
  | wait a =>
      exfalso
      have hp : (s.step rules (.call r)).pending? s.calls.length = some (.attempt a counted) := by
        rw [pending?_call, hstart, Gate.ofProgress_wait hv]
        rfl
      have hticket : a.ticket.issuer = i := (ticket_issuer_of_verify hs ht he hj hv).trans hi
      exact h.not_wait hs hnow hp hticket

end BacksOff

/-- After a fetch that has failed, no other fetch of the issuer starts before the retry interval is over, and until
then everyone who asks for the issuer is answered at once. Only an eviction cuts this short. -/
theorem backs_off (hs : s.Reachable rules) {result : Except FetchFault Document} {g : FetchFault}
    (ht : s.InFlight t)
    (ho : outcome rules.policy s.now t.issuer s.gate.cache.generation result = .error g)
    (hl : ∀ a ∈ l, ¬a.Evicts rules t.issuer) :
    (∀ x ∈ starts rules (s.step rules (.land t result)) l, x.1.issuer = t.issuer →
        s.now + rules.policy.retryInterval ≤ x.2) ∧
      ((after rules s (.land t result :: l)).now < s.now + rules.policy.retryInterval →
        BacksOff rules (after rules s (.land t result :: l)) t.issuer
          ⟨s.now + rules.policy.retryInterval, g⟩) := by
  have hrests := rests_land ht ho
  have htracked : (s.step rules (.land t result)).gate.cache.Tracked := tracked_after hs.tracked [.land t result]
  constructor
  · intro x hx hi
    obtain ⟨l₁, a, l₂, rfl, hstart⟩ := mem_trace.mp hx
    have hl₁ : ∀ b ∈ l₁, ¬b.Evicts rules t.issuer := fun b hb => hl b (List.mem_append_left _ hb)
    have hc : (after rules (s.step rules (.land t result)) l₁).gate.cache.Tracked := tracked_after htracked l₁
    by_cases hnow : (after rules (s.step rules (.land t result)) l₁).now < s.now + rules.policy.retryInterval
    · exact retryAt_le_of_startedBy (hrests.after htracked hl₁ hnow) hc hstart hi
    · rw [(departs_of_startedBy hc hstart).1]
      exact Nat.le_of_not_lt hnow
  · intro hnow
    rw [after_cons] at hnow ⊢
    have hafter := hrests.after htracked hl hnow
    have hreachable : (after rules (s.step rules (.land t result)) l).Reachable rules := by
      obtain ⟨epoch, l', rfl⟩ := hs
      exact ⟨epoch, l' ++ .land t result :: l, by rw [after_append, after_cons]⟩
    exact ⟨hafter.failure, fun u hu => hafter.not_inFlight hreachable.tracked hu,
      fun a x hx => hafter.starts hreachable hnow hx, fun a id p hp hi => hafter.waits hreachable hnow hp hi,
      fun url j hj hi => hafter.get hreachable hnow hj hi, fun seen hi => hafter.refresh hreachable hnow hi,
      fun r raw t e j hr hp he hj hi => hafter.attempt hreachable hnow hr hp he hj hi⟩

def refreshRun : List Action := staleRun ++ [.call (.get "https://idp.example/abc")]

theorem backs_off_stale :
    (after abcRules { epoch := 0 } refreshRun).InFlight ⟨"https://idp.example/abc", 1⟩ ∧
      BacksOff abcRules
        (after abcRules (after abcRules { epoch := 0 } refreshRun)
          [.land ⟨"https://idp.example/abc", 1⟩ (.error (.status "https://idp.example/abc" 503)), .resume 1,
            .pass 29999])
        "https://idp.example/abc" ⟨3730000, .status "https://idp.example/abc" 503⟩ := by
  have ht : (after abcRules { epoch := 0 } refreshRun).InFlight ⟨"https://idp.example/abc", 1⟩ := by
    decide +kernel
  have hl : ∀ a ∈ [Action.resume 1, .pass 29999], ¬a.Evicts abcRules "https://idp.example/abc" := by
    simp [Action.Evicts]
  refine ⟨ht, (backs_off ⟨0, refreshRun, rfl⟩ ht rfl hl).2 ?_⟩
  decide +kernel

end Run

end BearerGate
