import BearerGate.Proofs.Run.Windows

namespace BearerGate

open Cache

namespace Cache

variable {p : CachePolicy} {now : Millis} {s : Slot} {r seen : Record}

/-- What a forced refresh comes to: it joins, it is settled by what the slot holds, or a fetch starts. -/
theorem refresh_cases (rules : CacheRules) (now : Millis) (seen : Record) (c : Cache) :
    (∃ n, (c.slot seen.issuer).flight = some n ∧
        c.refresh rules now seen = (c.touch seen.issuer, .wait ⟨seen.issuer, n⟩)) ∨
      (c.slot seen.issuer).flight = none ∧
        ((∃ o, (c.slot seen.issuer).settled? rules.policy now (.keyMiss seen.generation) = some o ∧
            c.refresh rules now seen = (c.touch seen.issuer, .done (finishRefresh o))) ∨
          (c.slot seen.issuer).settled? rules.policy now (.keyMiss seen.generation) = none ∧
            c.refresh rules now seen =
              ((c.touch seen.issuer).depart now seen.issuer (.keyMiss seen.generation),
                .wait ⟨seen.issuer, (c.slot seen.issuer).started⟩)) := by
  have h := request_cases rules.policy now seen.issuer (.keyMiss seen.generation) (c.touch seen.issuer)
  simp only [slot_touch] at h
  rcases h with ⟨n, hn, hr⟩ | ⟨hn, ⟨o, ho, hr⟩ | ⟨ho, hr⟩⟩
  · exact .inl ⟨n, hn, by simp only [refresh, hr]⟩
  · exact .inr ⟨hn, .inl ⟨o, ho, by simp only [refresh, hr]⟩⟩
  · exact .inr ⟨hn, .inr ⟨ho, by simp only [refresh, hr]⟩⟩

theorem settled?_of_newer {w : Wanted} (hr : s.record = some r) (hw : w.isMetBy r now = true) :
    s.settled? p now w = some (.ok r) := by
  simp only [Slot.settled?, hr, hw, Bool.true_or, if_true]

theorem record_of_settled? {w : Wanted} (h : s.settled? p now w = some (.ok r)) : s.record = some r := by
  rw [Slot.settled?] at h
  split at h
  · rename_i r' hr
    split at h
    · cases h
      exact hr
    · simp at h
  · simp at h

end Cache

namespace Run

variable {rules : GateRules} {s : Run} {l : List Action} {t : Ticket} {x : Result} {seen : Record}

theorem refresh_done {c : Cache} {a : Except AuthFault Record}
    (h : s.gate.cache.refresh rules.cache s.now seen = (c, .done a)) :
    (s.step rules (.call (.refresh seen))).gate.cache = c ∧
      (s.step rules (.call (.refresh seen))).result? s.calls.length = some (.record a) := by
  constructor
  · simp only [step, Gate.start, h, Gate.ofLookup]
  · simp [step, Gate.start, h, Gate.ofLookup, result?, Call.result?]

theorem refresh_wait {c : Cache} (h : s.gate.cache.refresh rules.cache s.now seen = (c, .wait t)) :
    (s.step rules (.call (.refresh seen))).gate.cache = c ∧
      (s.step rules (.call (.refresh seen))).pending? s.calls.length = some (.refresh t) := by
  constructor
  · simp only [step, Gate.start, h, Gate.ofLookup]
  · simp [step, Gate.start, h, Gate.ofLookup, pending?, Call.pending?]

/-- How a forced refresh ends that begins in the state: with what settles it, or with the outcome of the fetch
that it waits for. -/
inductive RefreshEnds (rules : GateRules) (s : Run) (seen : Record) (l : List Action) :
    Except AuthFault Record → Prop
  | settled (o : Outcome) (hl : l = []) (hf : (s.gate.cache.slot seen.issuer).flight = none)
      (ho : (s.gate.cache.slot seen.issuer).settled? rules.policy s.now (.keyMiss seen.generation) = some o) :
      RefreshEnds rules s seen l (finishRefresh o)
  | landed (t : Ticket) (o : Outcome) (ht : t.issuer = seen.issuer)
      (hp : (s.step rules (.call (.refresh seen))).pending? s.calls.length = some (.refresh t))
      (hland : Lands rules s (.call (.refresh seen) :: l) t o) : RefreshEnds rules s seen l (finishRefresh o)

theorem Ends.of_refresh_wait {c : Cache} (h : s.Ends rules (.refresh seen) l x) (hc : s.gate.cache.Tracked)
    (hw : s.gate.cache.refresh rules.cache s.now seen = (c, .wait t)) (ht : t.issuer = seen.issuer) :
    ∃ a, x = .record a ∧ RefreshEnds rules s seen l a := by
  obtain ⟨hcache, hp⟩ := refresh_wait hw
  have hf : (s.step rules (.call (.refresh seen))).InFlight t := by
    have hwait := hc.refresh_wait (congrArg Prod.snd hw)
    rw [hw] at hwait
    rw [InFlight, hcache]
    exact hwait
  obtain ⟨l', o, rfl, hland, hx⟩ := h.waiting hc hp rfl hf
  exact ⟨_, (Call.ended.inj hx).symm, .landed t o ht hp (hland.append [.resume s.calls.length])⟩

theorem Ends.refreshed (h : s.Ends rules (.refresh seen) l x) (hc : s.gate.cache.Tracked) :
    ∃ a, x = .record a ∧ RefreshEnds rules s seen l a := by
  rcases refresh_cases rules.cache s.now seen s.gate.cache with
    ⟨n, -, hr⟩ | ⟨hf, ⟨o, ho, hr⟩ | ⟨-, hr⟩⟩
  · exact h.of_refresh_wait hc hr rfl
  · obtain ⟨rfl, rfl⟩ := h.at_once (refresh_done hr).2
    exact ⟨_, rfl, .settled o rfl hf ho⟩
  · exact h.of_refresh_wait hc hr rfl

end Run

end BearerGate
