import BearerGate.Proofs.Gate.Uncached
import BearerGate.Proofs.Run.Sound

namespace BearerGate

open Cache

namespace Gate

variable {rules : GateRules} {now : Millis} {unix : Int} {g : Gate} {a : Attempt} {t : Ticket}

theorem afterLookup_wait {u : Unverified} {e : TrustedIssuer} {r : Except AuthFault Record} {c : Cache}
    (hc : c.Tracked) (h : (afterLookup rules now unix u e r c).2 = .wait a) :
    a.phase = .refresh ∧ a.ticket ∈ (afterLookup rules now unix u e r c).1.flights.map Prod.fst := by
  simp only [afterLookup] at h ⊢
  split at h
  · cases h
  · rename_i r
    split at h
    · cases h
    · cases h
    · rename_i hk
      have hcount : { c with tally := c.tally.keyRefresh }.Tracked := hc.congr rfl rfl fun j => ⟨rfl, rfl⟩
      have hr (t : Ticket) : ({ c with tally := c.tally.keyRefresh }.refresh rules.cache now r).2 = .wait t → _ :=
        hcount.refresh_wait
      split at h
      · rename_i c' t he
        rw [he] at hr
        obtain rfl := Progress.wait.inj h
        exact ⟨rfl, hr t rfl⟩
      · obtain ⟨v, hv⟩ := afterRefresh_done rules unix u e _
        rw [hv] at h
        cases h

theorem verify_wait (hc : g.cache.Tracked) {raw : Text} (h : (g.verify rules now unix raw).2 = .wait a) :
    a.ticket ∈ (g.verify rules now unix raw).1.cache.flights.map Prod.fst := by
  rw [verify] at h ⊢
  split at h
  · cases h
  · rename_i u _
    have hcache := engine_cache rules u.issuer g
    split at h
    · cases h
    · rename_i g' e he
      rw [he] at hcache
      rw [← hcache] at hc
      have hget (t : Ticket) : (g'.cache.get rules.cache now e.url).2 = .wait t → _ := hc.get_wait
      have hafter := hc.changes (get_asks rules.cache now e.url g'.cache)
      split at h
      · rename_i c t hw
        rw [hw] at hget
        obtain rfl := Progress.wait.inj h
        exact hget t rfl
      · rename_i c r hw
        rw [hw] at hafter
        exact (afterLookup_wait hafter h).2

theorem resume_wait (hc : g.cache.Tracked) {b : Attempt} {o : Outcome}
    (h : (g.resume rules now unix b o).2 = .wait a) :
    b.phase = .lookup ∧ a.phase = .refresh ∧
      a.ticket ∈ (g.resume rules now unix b o).1.cache.flights.map Prod.fst := by
  rw [resume] at h ⊢
  split at h
  · rename_i hphase
    have hafter := hc.changes (finishGet_asks rules.policy now b.ticket.issuer o g.cache)
    exact ⟨hphase, afterLookup_wait hafter h⟩
  · obtain ⟨v, hv⟩ := afterRefresh_done rules unix b.token b.issuer (finishRefresh o)
    rw [hv] at h
    cases h

end Gate

namespace Run

variable {rules : GateRules} {source : Text → Except FetchFault Document} {s : Run} {id : Nat} {raw : Text}
  {E : Text → TrustedIssuer → Prop} {a : Gate.Attempt}

/-- Sees a call to its end when every fetch that it waits for ends at once, with what its issuer gives. -/
def attend (rules : GateRules) (source : Text → Except FetchFault Document) (id : Nat) : Nat → Run → Run
  | 0, s => s
  | n + 1, s =>
    match s.pending? id with
    | none => s
    | some p => attend rules source id n
        ((s.step rules (.land p.ticket (source p.ticket.issuer))).step rules (.resume id))

/-- What a call gets when every fetch that it waits for ends at once. -/
def ask (rules : GateRules) (source : Text → Except FetchFault Document) (s : Run) (r : Request) :
    Option Result :=
  let s' := s.step rules (.call r)
  (attend rules source s.calls.length (((s'.pending? s.calls.length).map Pending.waits).getD 0) s').result?
    s.calls.length

structure Attempting (rules : GateRules) (source : Text → Except FetchFault Document)
    (E : Text → TrustedIssuer → Prop) (raw : Text) (s : Run) (id : Nat) (a : Gate.Attempt) : Prop where
  tracked : s.gate.cache.Tracked
  holds : s.gate.cache.Holds (Reports rules source)
  pending : s.pending? id = some (.attempt a false)
  asking : a.Asking rules (Reports rules source) E raw

def Decides (rules : GateRules) (source : Text → Except FetchFault Document)
    (E : Text → TrustedIssuer → Prop) (raw : Text) (unix : Int) (s : Run) (id : Nat) : Prop :=
  ∃ v, s.result? id = some (.verdict v) ∧ Gate.Decided rules (Reports rules source) E unix raw v

theorem Attempting.land (h : Attempting rules source E raw s id a) (hf : s.InFlight a.ticket) :
    Attempting rules source E raw (s.step rules (.land a.ticket (source a.ticket.issuer))) id a ∧
      (s.step rules (.land a.ticket (source a.ticket.issuer))).unix = s.unix ∧
        ∃ o, Reports rules source a.ticket.issuer o ∧
          (s.step rules (.land a.ticket (source a.ticket.issuer))).gate.cache.outcome? a.ticket = some o := by
  rw [step_land hf]
  exact ⟨⟨h.tracked.land hf _, h.holds.land ⟨_, _, rfl⟩, h.pending, h.asking⟩, rfl, _, ⟨_, _, rfl⟩,
    h.tracked.outcome?_land hf _⟩

theorem Attempting.resume (h : Attempting rules source E raw s id a) {o : Outcome}
    (hr : Reports rules source a.ticket.issuer o) (ho : s.gate.cache.outcome? a.ticket = some o) :
    Decides rules source E raw s.unix (s.step rules (.resume id)) id ∨
      a.phase = .lookup ∧ (s.step rules (.resume id)).unix = s.unix ∧
        ∃ b, b.phase = .refresh ∧ (s.step rules (.resume id)).InFlight b.ticket ∧
          Attempting rules source E raw (s.step rules (.resume id)) id b := by
  have hcall : (s.step rules (.resume id)).calls[id]? = _ := calls_resume h.pending ho
  have hstep : s.step rules (.resume id) = _ := step_resume h.pending ho
  have hsound : (s.gate.resume rules s.now s.unix a o).2.Sound rules _ E s.unix raw :=
    Gate.resume_sound h.holds h.asking hr
  have hchanges : Asks rules.policy s.now s.gate.cache (s.gate.resume rules s.now s.unix a o).1.cache :=
    Gate.resume_asks a o s.gate
  simp only [Gate.proceed] at hcall hstep
  generalize hx : s.gate.resume rules s.now s.unix a o = x at hcall hsound hchanges hstep
  obtain ⟨g, p⟩ := x
  cases p with
  | done v => exact .inl ⟨v, result?_eq_some_iff.mpr hcall, hsound⟩
  | wait b =>
      have hwait := Gate.resume_wait (a := b) h.tracked (congrArg Prod.snd hx)
      rw [hx] at hwait
      obtain ⟨ha, hb, hf⟩ := hwait
      refine .inr ⟨ha, by rw [hstep]; rfl, b, hb, by rw [hstep]; exact hf, ?_⟩
      refine ⟨?_, ?_, pending?_eq_some_iff.mpr hcall, hsound⟩
      · rw [hstep]
        exact h.tracked.changes hchanges
      · rw [hstep]
        exact h.holds.changes hchanges

theorem attend_succ {p : Pending} (hp : s.pending? id = some p) (n : Nat) :
    attend rules source id (n + 1) s =
      attend rules source id n
        ((s.step rules (.land p.ticket (source p.ticket.issuer))).step rules (.resume id)) := by
  rw [attend, hp]

theorem attend_of_result? {r : Result} (hr : s.result? id = some r) (n : Nat) :
    attend rules source id n s = s := by
  have hp : s.pending? id = none := by
    rw [pending?, result?_eq_some_iff.mp hr]
    rfl
  cases n with
  | zero => rfl
  | succ n => rw [attend, hp]

/-- One fetch more and the call has its verdict, or it waits for the forced refresh. -/
theorem Attempting.round (h : Attempting rules source E raw s id a) (hf : s.InFlight a.ticket) (n : Nat) :
    Decides rules source E raw s.unix (attend rules source id (n + 1) s) id ∨
      a.phase = .lookup ∧ ∃ s' b, attend rules source id (n + 1) s = attend rules source id n s' ∧
        s'.unix = s.unix ∧ b.phase = .refresh ∧ s'.InFlight b.ticket ∧
          Attempting rules source E raw s' id b := by
  obtain ⟨hland, hunix, o, hr, ho⟩ := h.land hf
  rw [attend_succ h.pending]
  rcases hland.resume hr ho with ⟨v, hv, hd⟩ | ⟨ha, hunix', b, hb, hfb, hatt⟩
  · rw [hunix] at hd
    exact .inl ⟨v, (congrArg (·.result? id) (attend_of_result? hv n)).trans hv, hd⟩
  · exact .inr ⟨ha, _, b, rfl, hunix'.trans hunix, hb, hfb, hatt⟩

theorem Attempting.attend (h : Attempting rules source E raw s id a) (hf : s.InFlight a.ticket) :
    Decides rules source E raw s.unix (attend rules source id (Pending.waits (.attempt a false)) s) id := by
  -- After the lookup there may be one more wait, after the forced refresh there is none.
  cases hphase : a.phase with
  | refresh =>
      rw [Pending.waits, hphase]
      rcases h.round hf 0 with hd | ⟨ha, -⟩
      · exact hd
      · rw [hphase] at ha
        cases ha
  | lookup =>
      rw [Pending.waits, hphase]
      rcases h.round hf 1 with hd | ⟨-, s', b, he, hunix, hb, hfb, hatt⟩
      · exact hd
      · rcases hatt.round hfb 0 with hd | ⟨ha, -⟩
        · rw [hunix, ← he] at hd
          exact hd
        · rw [hb] at ha
          cases ha

theorem Attempting.call (rules : GateRules) (hc : s.gate.cache.Tracked)
    (hq : s.gate.cache.Holds (Reports rules source))
    (hE : ∀ u e, (s.gate.engine rules u).2 = some e → E u e) :
    Decides rules source E raw s.unix (s.step rules (.call (.verify raw))) s.calls.length ∨
      ∃ a, (s.step rules (.call (.verify raw))).unix = s.unix ∧
        (s.step rules (.call (.verify raw))).InFlight a.ticket ∧
          Attempting rules source E raw (s.step rules (.call (.verify raw))) s.calls.length a := by
  have hsound : (s.gate.verify rules s.now s.unix raw).2.Sound rules (Reports rules source) E s.unix raw :=
    Gate.verify_sound hq hE
  have hchanges : Asks rules.policy s.now s.gate.cache (s.gate.verify rules s.now s.unix raw).1.cache :=
    Gate.verify_asks raw s.gate
  have hstep : s.step rules (.call (.verify raw)) =
      { s with
        gate := (Gate.ofProgress false (s.gate.verify rules s.now s.unix raw)).1
        calls := s.calls ++ [(Gate.ofProgress false (s.gate.verify rules s.now s.unix raw)).2] } := rfl
  rw [hstep]
  generalize hx : s.gate.verify rules s.now s.unix raw = x at hsound hchanges
  obtain ⟨g, p⟩ := x
  cases p with
  | done v =>
      refine .inl ⟨v, ?_, hsound⟩
      simp [result?, Gate.ofProgress, Call.result?]
  | wait a =>
      have hwait := Gate.verify_wait (a := a) hc (congrArg Prod.snd hx)
      rw [hx] at hwait
      refine .inr ⟨a, rfl, hwait, hc.changes hchanges, hq.changes hchanges, ?_, hsound⟩
      simp [pending?, Gate.ofProgress, Call.pending?]

/-- A token that is checked gets the verdict that the engines and the answers of the issuers lead to. -/
theorem ask_verify (rules : GateRules) (source : Text → Except FetchFault Document)
    (hc : s.gate.cache.Tracked) (hq : s.gate.cache.Holds (Reports rules source)) (raw : Text) :
    ask rules source s (.verify raw) =
      some (.verdict (Gate.uncached rules source (fun u => (s.gate.engine rules u).2) s.unix raw)) := by
  have hdecides : Decides rules source (fun u e => (s.gate.engine rules u).2 = some e) raw s.unix
      (Run.attend rules source s.calls.length
        ((((s.step rules (.call (.verify raw))).pending? s.calls.length).map Pending.waits).getD 0)
        (s.step rules (.call (.verify raw)))) s.calls.length := by
    rcases Attempting.call rules hc hq fun u e h => h with ⟨v, hv, hd⟩ | ⟨a, hunix, hf, h⟩
    · refine ⟨v, ?_, hd⟩
      rw [attend_of_result? hv]
      exact hv
    · rw [h.pending, ← hunix]
      exact h.attend hf
  obtain ⟨v, hv, hd⟩ := hdecides
  refine hv.trans ?_
  rw [hd.eq_uncached]
  intro u hu
  simp only [Gate.engine, hu]

theorem unix_of_epoch (epoch : Int) (g : Gate) : ({ epoch := epoch, gate := g } : Run).unix = epoch := by
  simp [unix]

theorem unix_step {a : Action} (ha : ∀ d, a ≠ .pass d) : (s.step rules a).unix = s.unix := by
  obtain ⟨hepoch, hnow⟩ := clock_step rules s a
  have hd : a.duration = 0 := by
    cases a with
    | pass d => exact absurd rfl (ha d)
    | call | land | resume => rfl
  rw [unix, unix, hepoch, hnow, hd, Nat.add_zero]

/-- What lands is what the issuer gives. -/
def Honest (source : Text → Except FetchFault Document) (l : List Action) : Prop :=
  ∀ t result, .land t result ∈ l → result = source t.issuer

theorem Landed.reports {l : List Action} (hl : Honest source l) {i : Text} {o : Outcome}
    (h : Landed rules s l i o) : Reports rules source i o := by
  obtain ⟨t, rfl, l₁, result, l₂, rfl, -, rfl⟩ := h
  obtain rfl := hl t result (by simp)
  exact ⟨_, _, rfl⟩

theorem ask_after (rules : GateRules) (epoch : Int) {l : List Action} (hl : Honest source l) (raw : Text) :
    ask rules source (after rules { epoch := epoch } l) (.verify raw) =
      some (.verdict (Gate.uncached rules source
        (fun u => ((after rules { epoch := epoch } l).gate.engine rules u).2)
        (after rules { epoch := epoch } l).unix raw)) := by
  have hq : (after rules { epoch := epoch } l).gate.cache.Holds (Reports rules source) :=
    (sound_after rules epoch l).cache.mono fun _ _ h => h.reports hl
  exact ask_verify rules source (tracked_after .empty l) hq raw

end Run

end BearerGate
