import BearerGate.Proofs.Cache.Flight
import BearerGate.Proofs.Run.Calls

namespace BearerGate

namespace Cache

variable {c : Cache}

theorem Tracked.request_eq (h : c.Tracked) {t : Ticket} (ht : t ∈ c.flights.map Prod.fst)
    (p : CachePolicy) (now : Millis) (w : Wanted) : c.request p now t.issuer w = (c, .wait t) := by
  simp only [request, (h.flight_iff t).mp ht]

theorem Tracked.sweep_cases (h : c.Tracked) {t : Ticket} (ht : t ∈ c.flights.map Prod.fst)
    (rules : CacheRules) (now : Millis) {due : List Due} {d : Due} (hd : d ∈ due)
    (hi : d.issuer = t.issuer) (k : Nat) :
    ∃ u rest n, (c.sweep rules now due k).2 = .wait u rest n ∧
      (u = t ∧ (c.sweep rules now due k).1 = c ∨ d ∈ rest) := by
  -- The induction is on what is left to visit; the cache does not change until the sweep waits.
  induction due generalizing k with
  | nil => cases hd
  | cons e rest ih =>
      by_cases he : e.issuer = t.issuer
      · have hr := h.request_eq ht rules.policy now (.newer e.generation)
        rw [← he] at hr
        exact ⟨t, rest, k, by simp only [sweep, hr], .inl ⟨rfl, by simp only [sweep, hr]⟩⟩
      · have hrest : d ∈ rest := by
          rcases List.mem_cons.mp hd with rfl | hd
          · exact absurd hi he
          · exact hd
        rcases request_cases rules.policy now e.issuer (.newer e.generation) c with
          ⟨n, -, hr⟩ | ⟨-, ⟨o, -, hr⟩ | ⟨-, hr⟩⟩
        · exact ⟨⟨e.issuer, n⟩, rest, k, by simp only [sweep, hr], .inr hrest⟩
        · cases o with
          | ok r => simpa only [sweep, hr] using ih hrest (k + 1)
          | error f => simpa only [sweep, hr] using ih hrest k
        · exact ⟨⟨e.issuer, (c.slot e.issuer).started⟩, rest, k, by simp only [sweep, hr], .inr hrest⟩

theorem resumeSweep_eq (rules : CacheRules) (now : Millis) (o : Outcome) (rest : List Due) (n : Nat)
    (c : Cache) : ∃ k, c.resumeSweep rules now o rest n = c.sweep rules now rest k := by
  cases o with
  | ok r => exact ⟨n + 1, rfl⟩
  | error f => exact ⟨n, rfl⟩

end Cache

def Cache.Sweep.call : Cache.Sweep → Call
  | .done n => .ended (.refreshed n)
  | .wait t rest n => .waiting (.sweep t rest n)

theorem Gate.ofSweep_call (g : Gate) (x : Cache × Cache.Sweep) : (g.ofSweep x).2 = x.2.call := by
  obtain ⟨c, w⟩ := x
  cases w <;> rfl

namespace Run

variable {rules : GateRules} {s : Run} {t : Ticket}

theorem outcome?_of_inFlight (h : s.gate.cache.Tracked) (ht : s.InFlight t) :
    s.gate.cache.outcome? t = none := by
  rw [Cache.outcome?, List.lookup_eq_none_iff]
  intro x hx
  rw [bne_iff_ne]
  rintro rfl
  exact h.not_landed x hx ht

theorem inFlight_step (ht : s.InFlight t) {a : Action}
    (ha : ∀ result, a ≠ .land t result) : (s.step rules a).InFlight t := by
  rcases step_cache rules s a with ⟨u, result, rfl, -, he⟩ | hc
  · rw [InFlight, he, Cache.flights_land, List.mem_filter]
    refine ⟨ht, ?_⟩
    rw [decide_eq_true_eq]
    rintro rfl
    exact ha result rfl
  · exact hc.preserve (P := fun c => t ∈ c.flights.map Prod.fst) (fun c c' hc hm => by
      cases hc with
      | depart i w _ _ =>
          rw [Cache.flights_depart]
          exact List.mem_append_left _ hm
      | touch | count | evict => exact hm) ht

theorem outcome?_step {o : Outcome} (h : s.gate.cache.outcome? t = some o) (a : Action) :
    (s.step rules a).gate.cache.outcome? t = some o := by
  rcases step_cache rules s a with ⟨u, result, -, -, he⟩ | hc
  · rw [he]
    exact Cache.outcome?_land_of_some h result
  · rw [Cache.outcome?, hc.landed_eq]
    exact h

/-- A fetch under way stays so until it lands, and from then on everyone finds its outcome. -/
theorem inFlight_or_lands (h : s.gate.cache.Tracked) (ht : s.InFlight t) (l : List Action) :
    (after rules s l).InFlight t ∨
      ∃ o, Lands rules s l t o ∧ (after rules s l).gate.cache.outcome? t = some o := by
  induction l using List.reverseRecOn with
  | nil => exact .inl ht
  | append_singleton l a ih =>
      rw [after_concat]
      rcases ih with hf | ⟨o, hl, ho⟩
      · by_cases ha : ∃ result, a = .land t result
        · obtain ⟨result, rfl⟩ := ha
          refine .inr ⟨_, ⟨l, result, [], rfl, hf, rfl⟩, ?_⟩
          rw [step_land hf]
          exact (tracked_after h l).outcome?_land hf result
        · exact .inl (inFlight_step hf fun result he => ha ⟨result, he⟩)
      · exact .inr ⟨o, hl.append [a], outcome?_step ho a⟩

theorem outcome?_after {o : Outcome} (h : s.gate.cache.outcome? t = some o) (l : List Action) :
    (after rules s l).gate.cache.outcome? t = some o := by
  induction l using List.reverseRecOn with
  | nil => exact h
  | append_singleton l a ih =>
      rw [after_concat]
      exact outcome?_step ih a

theorem Lands.outcome? {l : List Action} {o : Outcome} (h : Lands rules s l t o) (hc : s.gate.cache.Tracked) :
    (after rules s l).gate.cache.outcome? t = some o := by
  obtain ⟨l₁, result, l₂, rfl, hf, rfl⟩ := h
  rw [after_append, after_cons, step_land hf]
  exact outcome?_after ((tracked_after hc l₁).outcome?_land hf result) l₂

/-- The call is made to wait for the fetch, and the fetches under way are those from before. -/
def Joins (rules : GateRules) (s : Run) (r : Request) (p : Pending) : Prop :=
  (s.step rules (.call r)).pending? s.calls.length = some p ∧
    (s.step rules (.call r)).gate.cache.flights = s.gate.cache.flights

/-- The action makes a sweep wait for the fetch without starting one, unless it has not come as far as
the issuer yet. -/
def SweepJoins (rules : GateRules) (s : Run) (a : Action) (id : Nat) (t : Ticket) (d : Cache.Due) :
    Prop :=
  ∃ u rest n, (s.step rules a).pending? id = some (.sweep u rest n) ∧
    (u = t ∧ (s.step rules a).gate.cache.flights = s.gate.cache.flights ∨ d ∈ rest)

/-- While the fetch is under way, whoever asks for a fetch of its issuer waits for this one. A lookup
asks when no record at hand answers it, a forced refresh always does, a sweep asks for the issuers
that are due one after the other. -/
structure Joined (rules : GateRules) (s : Run) (t : Ticket) : Prop where
  request : ∀ w, s.gate.cache.request rules.policy s.now t.issuer w = (s.gate.cache, .wait t)
  get : ∀ url i, rules.trust.resolve? url = some i → i.url = t.issuer →
    Cache.atHand? s.now (s.gate.cache.slot t.issuer) = none → s.Joins rules (.get url) (.get t)
  refresh : ∀ seen : Record, seen.issuer = t.issuer → s.Joins rules (.refresh seen) (.refresh t)
  sweep : ∀ horizon order, ∀ d ∈ Cache.arrange order (s.gate.cache.due (s.now + horizon)),
    d.issuer = t.issuer → s.SweepJoins rules (.call (.sweep horizon order)) s.calls.length t d
  sweepOn : ∀ id u rest n o, s.pending? id = some (.sweep u rest n) →
    s.gate.cache.outcome? u = some o → ∀ d ∈ rest,
    d.issuer = t.issuer → s.SweepJoins rules (.resume id) id t d
  keeps : ∀ a, (∀ result, a ≠ .land t result) → (s.step rules a).InFlight t

theorem Joined.of_tracked (h : s.gate.cache.Tracked) (ht : s.InFlight t) : Joined rules s t where
  request := h.request_eq ht _ _
  get url i hi hu ha := by
    have hr := (h.touch t.issuer).request_eq (t := t) ht rules.policy s.now .fresh
    have hget : s.gate.cache.get rules.cache s.now url = (s.gate.cache.touch t.issuer, .wait t) := by
      simp only [Cache.get, GateRules.cache, hi, hu, Cache.slot_touch, ha, hr]
    constructor
    · rw [pending?_call, Gate.start, hget]
      rfl
    · simp only [step, Gate.start, hget]
      rfl
  refresh seen hs := by
    have hr := (h.touch t.issuer).request_eq (t := t) ht rules.policy s.now (.keyMiss seen.generation)
    have hrefresh :
        s.gate.cache.refresh rules.cache s.now seen = (s.gate.cache.touch t.issuer, .wait t) := by
      simp only [Cache.refresh, GateRules.cache, hs, hr]
    constructor
    · rw [pending?_call, Gate.start, hrefresh]
      rfl
    · simp only [step, Gate.start, hrefresh]
      rfl
  sweep horizon order d hd hi := by
    obtain ⟨u, rest, n, hs, hc⟩ := h.sweep_cases ht rules.cache s.now hd hi 0
    refine ⟨u, rest, n, ?_, hc.imp_left fun hc => ⟨hc.1, ?_⟩⟩
    · rw [pending?_call, Gate.start, Gate.ofSweep_call, hs]
      rfl
    · simp only [step, Gate.start, Gate.ofSweep_cache]
      rw [hc.2]
  sweepOn id u rest n o hp ho d hd hi := by
    obtain ⟨m, hm⟩ := Cache.resumeSweep_eq rules.cache s.now o rest n s.gate.cache
    obtain ⟨v, rest', k, hs, hc⟩ := h.sweep_cases ht rules.cache s.now hd hi m
    rw [← hm] at hs hc
    refine ⟨v, rest', k, ?_, hc.imp_left fun hc => ⟨hc.1, ?_⟩⟩
    · rw [pending?, calls_resume hp ho, Gate.proceed, Gate.ofSweep_call, hs]
      rfl
    · rw [step_resume hp ho, Gate.proceed, Gate.ofSweep_cache, hc.2]
  keeps _ := inFlight_step ht

end Run

end BearerGate
