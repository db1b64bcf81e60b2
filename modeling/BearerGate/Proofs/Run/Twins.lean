import BearerGate.Proofs.Gate.Uncached
import BearerGate.Proofs.Run.Acceptance

namespace BearerGate

open Cache

/-- Tokens that name the same issuer, algorithm and key. -/
structure Unverified.Alike (t t' : Unverified) : Prop where
  issuer : t.issuer = t'.issuer
  alg : t.header.alg = t'.header.alg
  kid : t.header.kid = t'.header.kid

namespace Gate

variable (rules : GateRules) (now : Millis) (unix : Int) {t t' : Unverified}

/-- Attempts that are over, whatever the verdicts, or that wait for the same fetch in the same phase. -/
inductive Progress.Alike : Progress → Progress → Prop
  | done (v v' : Verdict) : Alike (.done v) (.done v')
  | wait (t t' : Unverified) (e : TrustedIssuer) (phase : Phase) (ticket : Ticket) (h : t.Alike t') :
      Alike (.wait ⟨t, e, phase, ticket⟩) (.wait ⟨t', e, phase, ticket⟩)

theorem selectKey_alike (h : t.Alike t') (r : Record) : r.selectKey t = r.selectKey t' := by
  simp only [Record.selectKey, h.alg, h.kid]

theorem afterRefresh_alike (t t' : Unverified) (e : TrustedIssuer) (a : Except AuthFault Record) :
    Progress.Alike (afterRefresh rules unix t e a) (afterRefresh rules unix t' e a) := by
  obtain ⟨v, hv⟩ := afterRefresh_done rules unix t e a
  obtain ⟨v', hv'⟩ := afterRefresh_done rules unix t' e a
  rw [hv, hv']
  exact .done v v'

theorem afterLookup_alike (h : t.Alike t') (e : TrustedIssuer) (a : Except AuthFault Record) (c : Cache) :
    (afterLookup rules now unix t e a c).1 = (afterLookup rules now unix t' e a c).1 ∧
      Progress.Alike (afterLookup rules now unix t e a c).2 (afterLookup rules now unix t' e a c).2 := by
  cases a with
  | error f => exact ⟨rfl, .done _ _⟩
  | ok r =>
      simp only [afterLookup, selectKey_alike h r]
      cases r.selectKey t' with
      | ok k => exact ⟨rfl, .done _ _⟩
      | error m =>
          cases m with
          | refused => exact ⟨rfl, .done _ _⟩
          | absent =>
              dsimp only
              split
              · exact ⟨rfl, .wait t t' e .refresh _ h⟩
              · exact ⟨rfl, afterRefresh_alike rules unix t t' e _⟩

theorem verify_alike {raw raw' : Text} (hp : Unverified.parse raw = .ok t)
    (hp' : Unverified.parse raw' = .ok t') (h : t.Alike t') (g : Gate) :
    (g.verify rules now unix raw).1 = (g.verify rules now unix raw').1 ∧
      Progress.Alike (g.verify rules now unix raw).2 (g.verify rules now unix raw').2 := by
  simp only [verify, hp, hp', h.issuer]
  split
  · exact ⟨rfl, .done _ _⟩
  · rename_i g e _
    split
    · exact ⟨rfl, .wait t t' e .lookup _ h⟩
    · rename_i c a _
      obtain ⟨hc, ha⟩ := afterLookup_alike rules now unix h e a c
      rw [hc]
      exact ⟨rfl, ha⟩

theorem resume_alike (h : t.Alike t') (e : TrustedIssuer) (phase : Phase) (ticket : Ticket) (o : Outcome)
    (g : Gate) :
    (g.resume rules now unix ⟨t, e, phase, ticket⟩ o).1 = (g.resume rules now unix ⟨t', e, phase, ticket⟩ o).1 ∧
      Progress.Alike (g.resume rules now unix ⟨t, e, phase, ticket⟩ o).2
        (g.resume rules now unix ⟨t', e, phase, ticket⟩ o).2 := by
  cases phase with
  | lookup =>
      obtain ⟨hc, ha⟩ := afterLookup_alike rules now unix h e
        (g.cache.finishGet now ticket.issuer o).2 (g.cache.finishGet now ticket.issuer o).1
      simp only [resume]
      rw [hc]
      exact ⟨rfl, ha⟩
  | refresh => exact ⟨rfl, afterRefresh_alike rules unix t t' e _⟩

end Gate

inductive Call.Alike : Call → Call → Prop
  | ended (v v' : Verdict) : Alike (.ended (.verdict v)) (.ended (.verdict v'))
  | waiting (t t' : Unverified) (e : TrustedIssuer) (phase : Gate.Phase) (ticket : Ticket) (h : t.Alike t') :
      Alike (.waiting (.attempt ⟨t, e, phase, ticket⟩ false)) (.waiting (.attempt ⟨t', e, phase, ticket⟩ false))

theorem Gate.ofProgress_alike {x x' : Gate × Gate.Progress} (hg : x.1 = x'.1) (hp : x.2.Alike x'.2) :
    (Gate.ofProgress false x).1 = (Gate.ofProgress false x').1 ∧
      (Gate.ofProgress false x).2.Alike (Gate.ofProgress false x').2 := by
  obtain ⟨g, p⟩ := x
  obtain ⟨g', p'⟩ := x'
  obtain rfl : g = g' := hg
  cases hp with
  | done v v' => exact ⟨rfl, .ended v v'⟩
  | wait t t' e phase ticket h => exact ⟨rfl, .waiting t t' e phase ticket h⟩

namespace Run

variable {rules : GateRules} {s s' : Run} {id : Nat} {t t' : Unverified}

/-- The second run is the first but for one call: same time, same gate, same other calls. -/
inductive Twins (id : Nat) (s : Run) : Run → Prop
  | mk (k k' : Call) (hk : s.calls[id]? = some k) (h : k.Alike k') :
      Twins id s { s with calls := s.calls.set id k' }

theorem Twins.of_eq {k k' : Call} (hk : s.calls[id]? = some k) (h : k.Alike k')
    (he : s' = { s with calls := s.calls.set id k' }) : Twins id s s' := by
  subst he
  exact .mk k k' hk h

theorem Twins.resume {k k' : Call} (hk : s.calls[id]? = some k) (h : k.Alike k') :
    Twins id (s.step rules (.resume id)) (({ s with calls := s.calls.set id k' } : Run).step rules (.resume id)) := by
  have hid : id < s.calls.length := (List.getElem?_eq_some_iff.mp hk).1
  have hk' : ({ s with calls := s.calls.set id k' } : Run).calls[id]? = some k' := List.getElem?_set_self hid
  cases h with
  | ended v v' =>
      rw [step_resume_ended (result?_eq_some_iff.mpr hk), step_resume_ended (result?_eq_some_iff.mpr hk')]
      exact .mk _ _ hk (.ended v v')
  | waiting t t' e phase ticket halike =>
      have hp := pending?_eq_some_iff.mpr hk
      have hp' := pending?_eq_some_iff.mpr hk'
      cases ho : s.gate.cache.outcome? ticket with
      | none =>
          rw [step_resume_waiting hp ho, step_resume_waiting hp' ho]
          exact .mk _ _ hk (.waiting t t' e phase ticket halike)
      | some o =>
          obtain ⟨hg, ha⟩ := Gate.resume_alike rules s.now s.unix halike e phase ticket o s.gate
          obtain ⟨hgate, hcall⟩ := Gate.ofProgress_alike hg ha
          rw [step_resume hp ho, step_resume hp' ho]
          apply Twins.of_eq (List.getElem?_set_self hid) hcall
          simp only [List.set_set, Gate.proceed]
          rw [hgate]
          rfl

theorem Twins.step (h : Twins id s s') (a : Action) : Twins id (s.step rules a) (s'.step rules a) := by
  obtain ⟨k, k', hk, halike⟩ := h
  have hid : id < s.calls.length := (List.getElem?_eq_some_iff.mp hk).1
  cases a with
  | pass d => exact .of_eq hk halike rfl
  | call r =>
      apply Twins.of_eq ((List.getElem?_append_left hid).trans hk) halike
      simp only [Run.step, List.set_append_left _ _ hid]
      rfl
  | land u result =>
      by_cases hu : s.InFlight u
      · have hu' : ({ s with calls := s.calls.set id k' } : Run).InFlight u := hu
        rw [step_land hu, step_land hu']
        exact .of_eq hk halike rfl
      · have hu' : ¬({ s with calls := s.calls.set id k' } : Run).InFlight u := hu
        rw [step_land_of_not hu, step_land_of_not hu']
        exact .of_eq hk halike rfl
  | resume j =>
      by_cases hj : j = id
      · subst hj
        exact .resume hk halike
      · have hpending : ({ s with calls := s.calls.set id k' } : Run).pending? j = s.pending? j := by
          rw [pending?, pending?, List.getElem?_set_ne (Ne.symm hj)]
        by_cases hstay : ∀ p, s.pending? j = some p → s.gate.cache.outcome? p.ticket = none
        · have hstay' : ∀ p, ({ s with calls := s.calls.set id k' } : Run).pending? j = some p →
              s.gate.cache.outcome? p.ticket = none := by
            rw [hpending]
            exact hstay
          rw [step_resume_of_none hstay, step_resume_of_none hstay']
          exact .of_eq hk halike rfl
        · push Not at hstay
          obtain ⟨p, hp, ho⟩ := hstay
          obtain ⟨o, ho⟩ := Option.ne_none_iff_exists'.mp ho
          rw [step_resume hp ho, step_resume (hpending.trans hp) ho]
          apply Twins.of_eq ((List.getElem?_set_ne hj).trans hk) halike
          simp only [List.set_comm _ _ hj]
          rfl

theorem Twins.after (h : Twins id s s') (l : List Action) : Twins id (after rules s l) (after rules s' l) := by
  induction l using List.reverseRecOn with
  | nil => exact h
  | append_singleton l a ih =>
      rw [after_concat, after_concat]
      exact ih.step a

theorem Twins.call {raw raw' : Text} (hp : Unverified.parse raw = .ok t) (hp' : Unverified.parse raw' = .ok t')
    (h : t.Alike t') (s : Run) :
    Twins s.calls.length (s.step rules (.call (.verify raw))) (s.step rules (.call (.verify raw'))) := by
  obtain ⟨hg, ha⟩ := Gate.verify_alike rules s.now s.unix hp hp' h s.gate
  obtain ⟨hgate, hcall⟩ := Gate.ofProgress_alike hg ha
  have hlast (k : Call) : (s.calls ++ [k])[s.calls.length]? = some k := by simp
  apply Twins.of_eq (hlast _) hcall
  simp only [Run.step, Gate.start, hgate]
  simp

/-- What a token holds besides its issuer, its algorithm and its key leaves no trace. From any state, and
whatever happens next, two runs that check one or the other of two such tokens go on alike: the same fetches
start at the same times, and all records, failures, counters and engines are the same. -/
theorem verify_traceless {raw raw' : Text} (hp : Unverified.parse raw = .ok t)
    (hp' : Unverified.parse raw' = .ok t') (h : t.Alike t') (s : Run) (l : List Action) :
    Twins s.calls.length (Run.after rules s (.call (.verify raw) :: l))
      (Run.after rules s (.call (.verify raw') :: l)) :=
  (Twins.call hp hp' h s).after l

def forgedToken : Text :=
  "eyJ0eXAiOiJ4IiwiYWxnIjoiRWREU0EiLCJraWQiOiJrIn0." ++
    "eyJzdWIiOiJyb290IiwiaXNzIjoiaHR0cHM6Ly9pZHAuZXhhbXBsZS9hYmMifQ.AA"

def forgedRun : List Action :=
  [.call (.verify forgedToken), .land ⟨"https://idp.example/abc", 0⟩ (.ok abcDocument), .resume 0]

theorem verify_traceless_forged :
    (after abcRules { epoch := 1700000000 } forgedRun).result? 0 =
        some (.verdict (.error ⟨.keyResolved, .signature⟩)) ∧
      Twins 0 (after abcRules { epoch := 1700000000 } abcRun)
        (after abcRules { epoch := 1700000000 } forgedRun) := by
  have hp : Unverified.parse abcToken =
      .ok ⟨abcToken, ⟨.edDSA, some "k", none, none⟩, "https://idp.example/abc"⟩ := by
    decide +kernel
  have hp' : Unverified.parse forgedToken =
      .ok ⟨forgedToken, ⟨.edDSA, some "k", some "x", none⟩, "https://idp.example/abc"⟩ := by
    decide +kernel
  constructor
  · decide +kernel
  · exact verify_traceless hp hp' ⟨rfl, rfl, rfl⟩ { epoch := 1700000000 } _

end Run

end BearerGate
