import BearerGate.Proofs.Run.Backoff

namespace BearerGate

open Cache

/-- The fetch that a call waits for in a forced refresh, be it asked for as such or for a token whose key is
absent. -/
def Pending.forced? : Pending → Option Ticket
  | .refresh t => some t
  | .attempt a _ => if a.phase = .refresh then some a.ticket else none
  | .get _ | .sweep _ _ _ => none

/-- What a forced fetch that was started at the time `k` leaves behind in the slot until the issuer is evicted. -/
structure Slot.Restrained (p : CachePolicy) (k : Millis) (x : Slot) : Prop where
  missed : ∃ m, x.lastKeyMiss = some m ∧ k ≤ m
  held : x.flight ≠ none ∨ x.record ≠ none ∨ ∃ f, x.failure = some f ∧ k + p.retryInterval ≤ f.retryAt

namespace Slot

variable {p : CachePolicy} {k now : Millis} {x : Slot} {n : Nat}

theorem Restrained.of_depart (p : CachePolicy) (now : Millis) (n : Nat) (x : Slot) :
    (x.depart now (.keyMiss n)).Restrained p now :=
  ⟨⟨now, rfl, Nat.le_refl now⟩, .inl (Option.some_ne_none _)⟩

theorem Restrained.depart (h : x.Restrained p k) (hnow : k ≤ now) (w : Wanted) :
    (x.depart now w).Restrained p k := by
  obtain ⟨⟨m, hm, hk⟩, -⟩ := h
  refine ⟨?_, .inl (Option.some_ne_none _)⟩
  by_cases hw : w.isKeyMiss
  · exact ⟨now, by rw [Slot.depart, if_pos hw], hnow⟩
  · exact ⟨m, by rw [Slot.depart, if_neg hw, hm], hk⟩

theorem Restrained.arrive (h : x.Restrained p k) (hnow : k ≤ now) (o : Outcome) :
    (x.arrive p now o).Restrained p k := by
  obtain ⟨hmissed, -⟩ := h
  cases o with
  | ok r => exact ⟨hmissed, .inr (.inl (Option.some_ne_none r))⟩
  | error f => exact ⟨hmissed, .inr (.inr ⟨_, rfl, Nat.add_le_add_right hnow _⟩)⟩

theorem not_isThrottled_of_settled? (hr : x.record ≠ none) (hs : x.settled? p now (.keyMiss n) = none) :
    x.isThrottled p.minRefreshInterval now = false := by
  obtain ⟨r, hr⟩ := Option.ne_none_iff_exists'.mp hr
  by_contra ht
  rw [Bool.not_eq_false] at ht
  simp [settled?, hr, ht, Wanted.isKeyMiss] at hs

theorem Restrained.le_of_record (h : x.Restrained p k) (hr : x.record ≠ none)
    (hs : x.settled? p now (.keyMiss n) = none) : k + p.minRefreshInterval ≤ now := by
  obtain ⟨m, hm, hk⟩ := h.missed
  have ht := not_isThrottled_of_settled? hr hs
  simp only [isThrottled, hm, decide_eq_false_iff_not, Nat.not_lt] at ht
  exact Nat.le_trans (Nat.add_le_add_right hk _) ht

theorem Restrained.le (h : x.Restrained p k) (hf : x.flight = none)
    (hs : x.settled? p now (.keyMiss n) = none) : k + min p.retryInterval p.minRefreshInterval ≤ now := by
  rcases h.held with hflight | hr | ⟨f, hfailure, hk⟩
  · exact absurd hf hflight
  · exact Nat.le_trans (Nat.add_le_add_left (Nat.min_le_right _ _) k) (h.le_of_record hr hs)
  · have hnow := Nat.le_trans hk (retryAt_le_of_settled? hfailure hs)
    exact Nat.le_trans (Nat.add_le_add_left (Nat.min_le_left _ _) k) hnow

end Slot

namespace Cache

variable {rules : CacheRules} {now : Millis} {c c' d : Cache} {t : Ticket}

theorem slot_get_done {url : Text} {a : Except AuthFault Record} (h : c.get rules now url = (c', .done a))
    (i : Text) : c'.slot i = c.slot i := by
  cases hj : rules.trust.resolve? url with
  | none =>
      cases (get_untrusted rules hj).symm.trans h
      rfl
  | some j =>
      rcases get_settles rules now c hj with ⟨r, count, -, hget⟩ | ⟨-, ⟨t, -, hget⟩ | ⟨f, -, -, hget⟩⟩
      · cases hget.symm.trans h
        exact slot_touch c j.url i
      · rw [h] at hget
        cases hget
      · cases hget.symm.trans h
        exact slot_touch c j.url i

/-- From the slots of the cache, a forced refresh of some record leads to the other cache and waits for the
fetch. -/
def Forces (rules : CacheRules) (now : Millis) (c c' : Cache) (t : Ticket) : Prop :=
  ∃ (d : Cache) (seen : Record), (∀ i, d.slot i = c.slot i) ∧ d.refresh rules now seen = (c', .wait t)

theorem Forces.of_slots (h : Forces rules now d c' t) (hd : ∀ i, d.slot i = c.slot i) :
    Forces rules now c c' t := by
  obtain ⟨e, seen, he, hr⟩ := h
  exact ⟨e, seen, fun i => (he i).trans (hd i), hr⟩

theorem Forces.departs (h : Forces rules now c c' t) (hf : (c.slot t.issuer).flight = none) :
    ∃ seen : Record, seen.issuer = t.issuer ∧
      (c.slot t.issuer).settled? rules.policy now (.keyMiss seen.generation) = none ∧
        c'.slot t.issuer = (c.slot t.issuer).depart now (.keyMiss seen.generation) := by
  obtain ⟨d, seen, hd, hr⟩ := h
  rcases refresh_cases rules now seen d with ⟨n, hn, he⟩ | ⟨-, ⟨o, -, he⟩ | ⟨hs, he⟩⟩
  · cases he.symm.trans hr
    cases hf.symm.trans (hd seen.issuer ▸ hn)
  · cases he.symm.trans hr
  · cases he.symm.trans hr
    refine ⟨seen, rfl, hd seen.issuer ▸ hs, ?_⟩
    rw [slot_depart, if_pos rfl, slot_touch, hd]

end Cache

namespace Gate

variable {rules : GateRules} {now : Millis} {unix : Int} {g : Gate} {a : Attempt} {p : Pending} {t : Ticket}

theorem afterLookup_forces {u : Unverified} {e : TrustedIssuer} {r : Except AuthFault Record} {c : Cache}
    (h : (afterLookup rules now unix u e r c).2 = .wait a) :
    Forces rules.cache now c (afterLookup rules now unix u e r c).1 a.ticket := by
  simp only [afterLookup] at h ⊢
  split at h
  · cases h
  · rename_i r
    split at h
    · cases h
    · cases h
    · split at h
      · rename_i c' t he
        obtain rfl := Progress.wait.inj h
        exact ⟨{ c with tally := c.tally.keyRefresh }, r, fun i => rfl, he⟩
      · obtain ⟨v, hv⟩ := afterRefresh_done rules unix u e _
        rw [hv] at h
        cases h

theorem verify_forces {raw : Text} (h : (g.verify rules now unix raw).2 = .wait a) (ha : a.phase = .refresh) :
    Forces rules.cache now g.cache (g.verify rules now unix raw).1.cache a.ticket := by
  rw [verify] at h ⊢
  split at h
  · cases h
  · rename_i u _
    have hcache := engine_cache rules u.issuer g
    split at h
    · cases h
    · rename_i g' e he
      rw [he] at hcache
      rw [← hcache]
      split at h
      · obtain rfl := Progress.wait.inj h
        cases ha
      · rename_i c r hget
        exact (afterLookup_forces h).of_slots (slot_get_done hget)

theorem resume_forces {b : Attempt} {o : Outcome} (h : (g.resume rules now unix b o).2 = .wait a) :
    Forces rules.cache now g.cache (g.resume rules now unix b o).1.cache a.ticket := by
  rw [resume] at h ⊢
  split at h
  · apply (afterLookup_forces h).of_slots
    intro i
    rw [slot, (sameFor_finishGet i b.ticket.issuer o g.cache).slot?, slot]
  · obtain ⟨v, hv⟩ := afterRefresh_done rules unix b.token b.issuer (finishRefresh o)
    rw [hv] at h
    cases h

theorem forced?_attempt {counted : Bool} (h : (Pending.attempt a counted).forced? = some t) :
    a.phase = .refresh ∧ a.ticket = t := by
  rw [Pending.forced?] at h
  split at h
  · rename_i ha
    exact ⟨ha, Option.some.inj h⟩
  · cases h

theorem start_forces {r : Request} (h : (g.start rules now unix r).2 = .waiting p) (hp : p.forced? = some t) :
    Forces rules.cache now g.cache (g.start rules now unix r).1.cache t := by
  cases r with
  | get url =>
      obtain ⟨u, -, rfl⟩ := ofLookup_waiting h
      cases hp
  | refresh seen =>
      obtain ⟨u, hu, rfl⟩ := ofLookup_waiting h
      obtain rfl := Option.some.inj hp
      rw [start, ofLookup_cache]
      exact ⟨g.cache, seen, fun i => rfl, Prod.ext rfl hu⟩
  | sweep horizon order =>
      obtain ⟨u, rest, n, -, rfl⟩ := ofSweep_waiting h
      cases hp
  | verify token | authenticate token =>
      obtain ⟨a, ha, rfl⟩ := ofProgress_waiting h
      obtain ⟨hphase, rfl⟩ := forced?_attempt hp
      rw [start, ofProgress_cache]
      exact verify_forces ha hphase
  | evict url | forget url => cases h

theorem proceed_forces {q : Pending} {o : Outcome} (h : (g.proceed rules now unix o q).2 = .waiting p)
    (hp : p.forced? = some t) : Forces rules.cache now g.cache (g.proceed rules now unix o q).1.cache t := by
  cases q with
  | get u | refresh u => cases h
  | sweep u rest n =>
      obtain ⟨v, rest', m, -, rfl⟩ := ofSweep_waiting h
      cases hp
  | attempt b counted =>
      obtain ⟨a, ha, rfl⟩ := ofProgress_waiting h
      obtain ⟨-, rfl⟩ := forced?_attempt hp
      rw [proceed, ofProgress_cache]
      exact resume_forces ha

end Gate

def Action.caller? (s : Run) : Action → Option Nat
  | .call _ => some s.calls.length
  | .resume id => some id
  | .pass _ | .land _ _ => none

namespace Run

variable {rules : GateRules} {s : Run} {l : List Action} {a : Action} {i : Text} {k : Millis}
  {f : Ticket × Millis}

/-- The fetches that forced refreshes start: the call that starts them waits for them as such. -/
def forcedBy (rules : GateRules) (s : Run) (a : Action) : List (Ticket × Millis) :=
  (startedBy rules s a).filter fun f =>
    (((a.caller? s).bind (s.step rules a).pending?).bind Pending.forced?) = some f.1

theorem mem_forcedBy : f ∈ forcedBy rules s a ↔ f ∈ startedBy rules s a ∧
    ∃ id p, a.caller? s = some id ∧ (s.step rules a).pending? id = some p ∧ p.forced? = some f.1 := by
  simp only [forcedBy, List.mem_filter, decide_eq_true_eq, Option.bind_eq_some_iff]
  constructor
  · rintro ⟨hf, p, ⟨id, hid, hp⟩, hforced⟩
    exact ⟨hf, id, p, hid, hp, hforced⟩
  · rintro ⟨hf, id, p, hid, hp, hforced⟩
    exact ⟨hf, p, ⟨id, hid, hp⟩, hforced⟩

theorem forces_of_forcedBy (hf : f ∈ forcedBy rules s a) :
    Forces rules.cache s.now s.gate.cache (s.step rules a).gate.cache f.1 := by
  obtain ⟨hstarted, id, p, hid, hp, hforced⟩ := mem_forcedBy.mp hf
  cases a with
  | pass | land => cases hid
  | call r =>
      obtain rfl := Option.some.inj hid
      rw [pending?_call] at hp
      apply Gate.start_forces _ hforced
      cases hk : (s.gate.start rules s.now s.unix r).2 with
      | waiting q =>
          rw [hk] at hp
          rw [Option.some.inj hp]
      | ended x =>
          rw [hk] at hp
          cases hp
  | resume j =>
      obtain rfl := Option.some.inj hid
      rcases resume_cases rules s j with ⟨q, o, hq, ho⟩ | he
      · have hk : (s.step rules (.resume j)).calls[j]? = _ := calls_resume hq ho
        rw [pending?_eq_some_iff.mp hp] at hk
        rw [step_resume hq ho]
        exact Gate.proceed_forces (Option.some.inj hk).symm hforced
      · rw [startedBy_of_flights (by rw [he])] at hstarted
        cases hstarted

theorem departs_of_forcedBy (hc : s.gate.cache.Tracked) (hf : f ∈ forcedBy rules s a) :
    f = (⟨f.1.issuer, (s.gate.cache.slot f.1.issuer).started⟩, s.now) ∧
      (s.gate.cache.slot f.1.issuer).flight = none ∧ ∃ seen : Record, seen.issuer = f.1.issuer ∧
        (s.gate.cache.slot f.1.issuer).settled? rules.policy s.now (.keyMiss seen.generation) = none ∧
          (s.step rules a).gate.cache.slot f.1.issuer =
            (s.gate.cache.slot f.1.issuer).depart s.now (.keyMiss seen.generation) := by
  obtain ⟨he, hnone, -⟩ := departs_of_startedBy hc (mem_forcedBy.mp hf).1
  exact ⟨he, hnone, (forces_of_forcedBy hf).departs hnone⟩

theorem forcedBy_refresh {seen : Record} (hc : s.gate.cache.Tracked)
    (hf : (s.gate.cache.slot seen.issuer).flight = none)
    (hs : (s.gate.cache.slot seen.issuer).settled? rules.policy s.now (.keyMiss seen.generation) = none) :
    (⟨seen.issuer, (s.gate.cache.slot seen.issuer).started⟩, s.now) ∈
      forcedBy rules s (.call (.refresh seen)) := by
  rcases refresh_cases rules.cache s.now seen s.gate.cache with ⟨n, hn, -⟩ | ⟨-, ⟨o, ho, -⟩ | ⟨-, he⟩⟩
  · cases hf.symm.trans hn
  · cases hs.symm.trans ho
  · obtain ⟨hcache, hp⟩ := refresh_wait he
    refine mem_forcedBy.mpr ⟨List.mem_filter.mpr ⟨?_, ?_⟩, _, _, rfl, hp, rfl⟩
    · rw [hcache, depart, slot_touch]
      exact List.mem_append_right _ (List.mem_singleton_self _)
    · have hnew : ¬s.InFlight ⟨seen.issuer, (s.gate.cache.slot seen.issuer).started⟩ := hc.not_mem_flights hf
      exact decide_eq_true hnew

theorem inFlight_of_forcedBy (hf : f ∈ forcedBy rules s a) : (s.step rules a).InFlight f.1 :=
  List.mem_map_of_mem (List.mem_of_mem_filter (mem_forcedBy.mp hf).1)

theorem now_of_forcedBy (hc : s.gate.cache.Tracked) (hf : f ∈ forcedBy rules s a) :
    (s.step rules a).now = f.2 := by
  obtain ⟨-, id, p, hid, -⟩ := mem_forcedBy.mp hf
  have hd : a.duration = 0 := by
    cases a with
    | pass | land => cases hid
    | call | resume => rfl
  rw [(clock_step rules s a).2, hd, (departs_of_forcedBy hc hf).1, Nat.add_zero]

theorem restrained_step (h : (s.gate.cache.slot i).Restrained rules.policy k) (hc : s.gate.cache.Tracked)
    (hnow : k ≤ s.now) (ha : ¬a.Evicts rules i) :
    ((s.step rules a).gate.cache.slot i).Restrained rules.policy k := by
  obtain ⟨x, fetches, hx, -, hstep⟩ := exists_slotStep hc rules a i
  rw [hx]
  cases hstep with
  | stays => exact h
  | departs w => exact h.depart hnow w
  | arrives e => exact h.arrive hnow _
  | empties he => exact absurd he ha

theorem restrained_after (h : (s.gate.cache.slot i).Restrained rules.policy k) (hc : s.gate.cache.Tracked)
    (hnow : k ≤ s.now) (hl : ∀ a ∈ l, ¬a.Evicts rules i) :
    ((after rules s l).gate.cache.slot i).Restrained rules.policy k := by
  induction l using List.reverseRecOn with
  | nil => exact h
  | append_singleton l a ih =>
      rw [after_concat]
      have hbefore := ih fun b hb => hl b (List.mem_append_left _ hb)
      apply restrained_step hbefore (tracked_after hc l)
      · exact Nat.le_trans hnow (now_le_after rules s l)
      · exact hl a (by simp)

/-- The forced fetch `f` is started by the action `a`. Until its issuer is evicted, no other one of the issuer is
started before the interval is over. -/
def Spaced (rules : GateRules) (s : Run) (a : Action) (f : Ticket × Millis) (interval : Millis) : Prop :=
  ∀ l b x, (∀ e ∈ l, ¬e.Evicts rules f.1.issuer) → x ∈ forcedBy rules (after rules s (a :: l)) b →
    x.1.issuer = f.1.issuer → f.2 + interval ≤ x.2

/-- How forced fetches of an issuer are kept apart: by the refresh interval if there is a record for others to be
content with, and by the retry interval if there is none and the fetch fails at once. -/
structure Throttles (rules : GateRules) (s : Run) (a : Action) (f : Ticket × Millis) : Prop where
  time : f.2 = s.now
  spaced : Spaced rules s a f (min rules.policy.retryInterval rules.policy.minRefreshInterval)
  outage : s.gate.cache.record? f.1.issuer = none → ∀ fault, ∀ seen : Record, seen.issuer = f.1.issuer →
    (⟨f.1.issuer, f.1.number + 1⟩, f.2 + rules.policy.retryInterval) ∈
      forcedBy rules (after rules s [a, .land f.1 (.error fault), .pass rules.policy.retryInterval])
        (.call (.refresh seen))
  exact : Spaced rules s a f rules.policy.minRefreshInterval ↔
    s.gate.cache.record? f.1.issuer ≠ none ∨ rules.policy.minRefreshInterval ≤ rules.policy.retryInterval

section Forced

variable (hs : s.Reachable rules) (hf : f ∈ forcedBy rules s a)

include hs hf

theorem restrained_of_forcedBy (hl : ∀ e ∈ l, ¬e.Evicts rules f.1.issuer) :
    ((after rules s (a :: l)).gate.cache.slot f.1.issuer).Restrained rules.policy f.2 := by
  obtain ⟨he, -, seen, -, -, hslot⟩ := departs_of_forcedBy hs.tracked hf
  have htime : f.2 = s.now := congrArg Prod.snd he
  have hstep : ((s.step rules a).gate.cache.slot f.1.issuer).Restrained rules.policy s.now := by
    rw [hslot]
    exact .of_depart _ _ _ _
  rw [htime, after_cons]
  exact restrained_after hstep (tracked_after hs.tracked [a]) (now_le_after rules s [a]) hl

theorem spaced_min :
    Spaced rules s a f (min rules.policy.retryInterval rules.policy.minRefreshInterval) := by
  intro l b x hl hx hi
  obtain ⟨he, hnone, seen, -, hsettled, -⟩ := departs_of_forcedBy (tracked_after hs.tracked (a :: l)) hx
  rw [hi] at hnone hsettled
  rw [he]
  exact (restrained_of_forcedBy hs hf hl).le hnone hsettled

theorem spaced_of_record? (hr : s.gate.cache.record? f.1.issuer ≠ none) :
    Spaced rules s a f rules.policy.minRefreshInterval := by
  intro l b x hl hx hi
  obtain ⟨he, -, seen, -, hsettled, -⟩ := departs_of_forcedBy (tracked_after hs.tracked (a :: l)) hx
  have hrecord : (after rules s (a :: l)).gate.cache.record? f.1.issuer ≠ none := by
    obtain ⟨-, -, seen, -, -, hslot⟩ := departs_of_forcedBy hs.tracked hf
    have hstep : (s.step rules a).gate.cache.record? f.1.issuer ≠ none := by
      rw [record?, hslot]
      exact hr
    rw [after_cons]
    rcases record?_after (s := s.step rules a) hl with hold | ⟨r, hr', -⟩
    · rwa [hold]
    · rw [hr']
      exact Option.some_ne_none r
  rw [hi] at hsettled
  rw [he]
  exact (restrained_of_forcedBy hs hf hl).le_of_record hrecord hsettled

/-- Without a record, the failure of the fetch is all that keeps the next one waiting. -/
theorem forcedBy_outage (hr : s.gate.cache.record? f.1.issuer = none) (fault : FetchFault) {seen : Record}
    (hseen : seen.issuer = f.1.issuer) :
    (⟨f.1.issuer, f.1.number + 1⟩, f.2 + rules.policy.retryInterval) ∈
      forcedBy rules (after rules s [a, .land f.1 (.error fault), .pass rules.policy.retryInterval])
        (.call (.refresh seen)) := by
  obtain ⟨he, -, seen', -, -, hslot⟩ := departs_of_forcedBy hs.tracked hf
  have ht := inFlight_of_forcedBy hf
  have hnow := now_of_forcedBy hs.tracked hf
  have hc : (after rules s [a, .land f.1 (.error fault), .pass rules.policy.retryInterval]).gate.cache.Tracked :=
    tracked_after hs.tracked _
  have hlater : (after rules s [a, .land f.1 (.error fault), .pass rules.policy.retryInterval]).now =
      f.2 + rules.policy.retryInterval := by
    rw [after_cons, after_cons, step_land ht, hnow]
    rfl
  have hfailed : (after rules s [a, .land f.1 (.error fault), .pass rules.policy.retryInterval]).gate.cache.slot
      seen.issuer =
        { (s.gate.cache.slot f.1.issuer).depart s.now (.keyMiss seen'.generation) with
          flight := none
          failure := some ⟨f.2 + rules.policy.retryInterval, fault⟩ } := by
    rw [hseen, ← hslot, ← hnow]
    exact slot_land_error ht rfl
  generalize after rules s [a, .land f.1 (.error fault), .pass rules.policy.retryInterval] = s' at hc hlater hfailed
  have hsettled : (s'.gate.cache.slot seen.issuer).settled? rules.policy s'.now (.keyMiss seen.generation) = none := by
    rw [record?] at hr
    rw [hfailed, hlater]
    simp [Slot.settled?, Slot.depart, Slot.pendingFault?, hr]
  have hnext := forcedBy_refresh hc (by rw [hfailed]) hsettled
  have hnumber : f.1.number = (s.gate.cache.slot f.1.issuer).started := congrArg (·.1.number) he
  rw [hfailed, hlater, hseen] at hnext
  rw [hnumber]
  exact hnext

end Forced

/-- Forced fetches of an issuer that is not evicted in between are the refresh interval apart if there is a record
of it, or if the retry interval is as long; otherwise an outage lets them follow at the retry interval. -/
theorem throttles (hs : s.Reachable rules) (hf : f ∈ forcedBy rules s a) : Throttles rules s a f where
  time := congrArg Prod.snd (departs_of_forcedBy hs.tracked hf).1
  spaced := spaced_min hs hf
  outage hr fault _ hseen := forcedBy_outage hs hf hr fault hseen
  exact := by
    constructor
    · intro h
      by_cases hr : s.gate.cache.record? f.1.issuer = none
      · obtain ⟨-, -, seen, hseen, -⟩ := departs_of_forcedBy hs.tracked hf
        have hnext := forcedBy_outage hs hf hr (.status f.1.issuer 503) hseen
        have hle := h _ _ _ (by simp [Action.Evicts]) hnext rfl
        exact .inr (Nat.le_of_add_le_add_left hle)
      · exact .inl hr
    · rintro (hr | hle)
      · exact spaced_of_record? hs hf hr
      · have hspaced := spaced_min hs hf
        rwa [Nat.min_eq_right hle] at hspaced

def renamedDocument : Document := { abcDocument with jwks := abcDocument.jwks.map ({ · with kid := some "l" }) }

def renamedRun : List Action :=
  [.call (.get "https://idp.example/abc"), .land ⟨"https://idp.example/abc", 0⟩ (.ok renamedDocument), .resume 0]

theorem throttles_renamed :
    (⟨"https://idp.example/abc", 1⟩, 0) ∈
        forcedBy abcRules (after abcRules { epoch := 1700000000 } renamedRun) (.call (.verify abcToken)) ∧
      Throttles abcRules (after abcRules { epoch := 1700000000 } renamedRun) (.call (.verify abcToken))
        (⟨"https://idp.example/abc", 1⟩, 0) := by
  have hf : (⟨"https://idp.example/abc", 1⟩, 0) ∈
      forcedBy abcRules (after abcRules { epoch := 1700000000 } renamedRun) (.call (.verify abcToken)) := by
    decide +kernel
  exact ⟨hf, throttles ⟨1700000000, renamedRun, rfl⟩ hf⟩

/-- A retry interval of a second and a refresh interval of ten. -/
def hastyRules : GateRules := { abcRules with policy := ⟨3600000, 0, 3600000, 1000, 1000, 1000, 10000⟩ }

def hastyRecord : Record := { abcRecord with usableUntil := 3601000 }

def evictedRun : List Action :=
  [.call (.get "https://idp.example/abc"), .land ⟨"https://idp.example/abc", 0⟩ (.ok abcDocument), .resume 0,
    .call (.forget "https://idp.example/abc")]

def failedRefresh : List Action :=
  [.land ⟨"https://idp.example/abc", 1⟩ (.error (.status "https://idp.example/abc" 503)), .resume 2, .pass 1000]

theorem not_spaced_outage :
    Returned hastyRules { epoch := 0 } evictedRun hastyRecord ∧
      (⟨"https://idp.example/abc", 1⟩, 0) ∈
          forcedBy hastyRules (after hastyRules { epoch := 0 } evictedRun) (.call (.refresh hastyRecord)) ∧
        ¬Spaced hastyRules (after hastyRules { epoch := 0 } evictedRun) (.call (.refresh hastyRecord))
          (⟨"https://idp.example/abc", 1⟩, 0) hastyRules.policy.minRefreshInterval := by
  have hreturned : (after hastyRules { epoch := 0 } (evictedRun.take 3)).result? 0 =
      some (.record (.ok hastyRecord)) := by
    decide +kernel
  have hnext : (⟨"https://idp.example/abc", 2⟩, 1000) ∈
      forcedBy hastyRules
        (after hastyRules (after hastyRules { epoch := 0 } evictedRun) (.call (.refresh hastyRecord) :: failedRefresh))
        (.call (.refresh hastyRecord)) := by
    decide +kernel
  have hl : ∀ e ∈ failedRefresh, ¬e.Evicts hastyRules "https://idp.example/abc" := by
    simp [failedRefresh, Action.Evicts]
  refine ⟨⟨evictedRun.take 3, List.take_prefix 3 evictedRun, .inl ⟨0, hreturned⟩⟩, by decide +kernel, fun h => ?_⟩
  have hle := h failedRefresh _ _ hl hnext rfl
  revert hle
  decide

end Run

end BearerGate
