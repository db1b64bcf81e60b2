import BearerGate.Proofs.Run.Refresh
import BearerGate.Proofs.Run.Returned
import BearerGate.Proofs.Run.Trace

namespace BearerGate

open Cache

/-- A record that is newer than the one seen settles a forced refresh, but only if no fetch is under way. -/
theorem Cache.refresh_of_newer {c : Cache} {seen r : Record} (rules : CacheRules) (now : Millis)
    (hr : c.record? seen.issuer = some r) (hnew : seen.generation < r.generation) :
    (∃ n, (c.slot seen.issuer).flight = some n ∧
        c.refresh rules now seen = (c.touch seen.issuer, .wait ⟨seen.issuer, n⟩)) ∨
      (c.slot seen.issuer).flight = none ∧
        c.refresh rules now seen = (c.touch seen.issuer, .done (.ok r)) := by
  have hsettled : (c.slot seen.issuer).settled? rules.policy now (.keyMiss seen.generation) = some (.ok r) :=
    settled?_of_newer hr (decide_eq_true hnew)
  rcases refresh_cases rules now seen c with hjoin | ⟨hf, ⟨o, ho, he⟩ | ⟨hnone, -⟩⟩
  · exact .inl hjoin
  · obtain rfl := Option.some.inj (hsettled.symm.trans ho)
    exact .inr ⟨hf, he⟩
  · cases hsettled.symm.trans hnone

namespace Run

variable {rules : GateRules} {s : Run} {seen r : Record} {l : List Action} {x : Result} {id n : Nat}

theorem result?_of_pending? {p : Pending} (hp : s.pending? id = some p) : s.result? id = none := by
  cases hx : s.result? id with
  | none => rfl
  | some x => cases (pending?_eq_some_iff.mp hp).symm.trans (result?_eq_some_iff.mp hx)

theorem gate_resume_refresh {t : Ticket} (hp : s.pending? id = some (.refresh t)) :
    (s.step rules (.resume id)).gate = s.gate := by
  rcases resume_cases rules s id with ⟨p, o, hp', ho⟩ | he
  · obtain rfl := Option.some.inj (hp.symm.trans hp')
    rw [step_resume hp ho]
    rfl
  · rw [he]

theorem refresh_joins (rules : GateRules) (hc : s.gate.cache.Tracked)
    (hf : (s.gate.cache.slot seen.issuer).flight = some n) :
    (s.step rules (.call (.refresh seen))).gate.cache = s.gate.cache.touch seen.issuer ∧
      (s.step rules (.call (.refresh seen))).pending? s.calls.length = some (.refresh ⟨seen.issuer, n⟩) ∧
        (s.step rules (.call (.refresh seen))).InFlight ⟨seen.issuer, n⟩ := by
  have hr : s.gate.cache.refresh rules.cache s.now seen =
      (s.gate.cache.touch seen.issuer, .wait ⟨seen.issuer, n⟩) := by
    rcases refresh_cases rules.cache s.now seen s.gate.cache with ⟨m, hm, hr⟩ | ⟨hnone, -⟩
    · rw [hr, Option.some.inj (hm.symm.trans hf)]
    · cases hnone.symm.trans hf
  obtain ⟨hcache, hp⟩ := refresh_wait hr
  refine ⟨hcache, hp, ?_⟩
  rw [InFlight, hcache, (hc.touch seen.issuer).flight_iff, slot_touch]
  exact hf

theorem ends_joined (rules : GateRules) (hc : s.gate.cache.Tracked)
    (hf : (s.gate.cache.slot seen.issuer).flight = some n) (result : Except FetchFault Document) :
    s.Ends rules (.refresh seen) [.land ⟨seen.issuer, n⟩ result, .resume s.calls.length]
      (.record (finishRefresh (outcome rules.policy s.now seen.issuer s.gate.cache.generation result))) := by
  obtain ⟨hcache, hp, ht⟩ := refresh_joins rules hc hf
  have hland : ((s.step rules (.call (.refresh seen))).step rules (.land ⟨seen.issuer, n⟩ result)).pending?
      s.calls.length = some (.refresh ⟨seen.issuer, n⟩) := by
    apply pending?_step hp
    intro ha
    cases ha
  refine ⟨[.call (.refresh seen), .land ⟨seen.issuer, n⟩ result], .resume s.calls.length, rfl, ?_, ?_⟩
  · exact result?_of_pending? hland
  · rw [after_concat]
    apply result?_resume (o := outcome rules.policy s.now seen.issuer s.gate.cache.generation result) hland
    · rw [step_land ht, hcache]
      exact (hc.touch seen.issuer).outcome?_land (hcache ▸ ht) result
    · rfl

/-- The forced refresh that begins in the state starts no fetch, and whatever happens, it gives a record that
is newer than the one seen. -/
def AnswersNewer (rules : GateRules) (s : Run) (seen : Record) : Prop :=
  startedBy rules s (.call (.refresh seen)) = [] ∧ ∀ l x, s.Ends rules (.refresh seen) l x →
    ∃ r, x = .record (.ok r) ∧ seen.generation < r.generation

/-- A forced refresh that finds a newer record in the slot. It starts no fetch, and it gives that record at once
unless a fetch of the issuer is under way; then it waits for this one and gives what it brings, be it a failure. -/
structure FindsNewer (rules : GateRules) (s : Run) (seen r : Record) : Prop where
  starts : startedBy rules s (.call (.refresh seen)) = [] ∧
    ∀ l, startedBy rules (after rules s (.call (.refresh seen) :: l)) (.resume s.calls.length) = []
  at_once : (s.gate.cache.slot seen.issuer).flight = none → s.Ends rules (.refresh seen) [] (.record (.ok r))
  joins : ∀ n, (s.gate.cache.slot seen.issuer).flight = some n → ∀ l,
    (∃ x, (after rules s (.call (.refresh seen) :: l)).result? s.calls.length = some x) ∨
      (after rules s (.call (.refresh seen) :: l)).pending? s.calls.length = some (.refresh ⟨seen.issuer, n⟩) ∧
        ((after rules s (.call (.refresh seen) :: l)).InFlight ⟨seen.issuer, n⟩ ∨
          ∃ x, ((after rules s (.call (.refresh seen) :: l)).step rules (.resume s.calls.length)).result?
            s.calls.length = some x)
  ends : ∀ l x, s.Ends rules (.refresh seen) l x →
    (∃ r', x = .record (.ok r') ∧ r'.issuer = seen.issuer ∧ seen.generation < r'.generation) ∨
      ∃ n f, (s.gate.cache.slot seen.issuer).flight = some n ∧
        Lands rules s (.call (.refresh seen) :: l) ⟨seen.issuer, n⟩ (.error f) ∧
          x = .record (.error (.unreachable f))
  answers : AnswersNewer rules s seen ↔ (s.gate.cache.slot seen.issuer).flight = none

theorem Ends.of_newer (h : s.Ends rules (.refresh seen) l x) (hs : s.Reachable rules)
    (hr : s.gate.cache.record? seen.issuer = some r) (hnew : seen.generation < r.generation) :
    (∃ r', x = .record (.ok r') ∧ r'.issuer = seen.issuer ∧ seen.generation < r'.generation) ∨
      ∃ n f, (s.gate.cache.slot seen.issuer).flight = some n ∧
        Lands rules s (.call (.refresh seen) :: l) ⟨seen.issuer, n⟩ (.error f) ∧
          x = .record (.error (.unreachable f)) := by
  have hgeneration := (hs.windowed hr).2
  obtain ⟨a, rfl, ha⟩ := h.refreshed hs.tracked
  cases ha with
  | settled o _ _ ho =>
      have hsettled : (s.gate.cache.slot seen.issuer).settled? rules.policy s.now (.keyMiss seen.generation) =
          some (.ok r) :=
        settled?_of_newer hr (decide_eq_true hnew)
      obtain rfl := Option.some.inj (hsettled.symm.trans ho)
      obtain ⟨epoch, l, rfl⟩ := hs
      exact .inl ⟨r, rfl, ((sound_after rules epoch l).cache.record? hr).issuer, hnew⟩
  | landed t o ht hp hland =>
      cases o with
      | ok r' =>
          have hlanded : Landed rules s (.call (.refresh seen) :: l) seen.issuer (.ok r') := ⟨t, ht, hland⟩
          exact .inl ⟨r', rfl, hlanded.issuer,
            Nat.lt_trans hnew (Nat.lt_of_le_of_lt hgeneration hlanded.windowed.2.1)⟩
      | error f =>
          rcases refresh_of_newer rules.cache s.now hr hnew with ⟨n, hf, he⟩ | ⟨-, he⟩
          · obtain rfl := Pending.refresh.inj (Option.some.inj (hp.symm.trans (refresh_wait he).2))
            exact .inr ⟨n, f, hf, hland, rfl⟩
          · have hnone := result?_of_pending? hp
            rw [(refresh_done he).2] at hnone
            cases hnone

theorem startedBy_refresh (hr : s.gate.cache.record? seen.issuer = some r)
    (hnew : seen.generation < r.generation) : startedBy rules s (.call (.refresh seen)) = [] := by
  apply startedBy_of_flights
  rcases refresh_of_newer rules.cache s.now hr hnew with ⟨n, -, he⟩ | ⟨-, he⟩
  · rw [(refresh_wait he).1, touch, setSlot]
  · rw [(refresh_done he).1, touch, setSlot]

/-- A forced refresh for which the record in the slot is new enough starts no fetch, but it joins one that is
under way and then fails if this fails. -/
theorem findsNewer (hs : s.Reachable rules) (hr : s.gate.cache.record? seen.issuer = some r)
    (hnew : seen.generation < r.generation) : FindsNewer rules s seen r where
  starts := by
    refine ⟨startedBy_refresh hr hnew, fun l => startedBy_of_flights ?_⟩
    rw [after_cons]
    cases hx : (after rules (s.step rules (.call (.refresh seen))) l).result? s.calls.length with
    | some x => rw [step_resume_ended hx]
    | none =>
        rcases refresh_of_newer rules.cache s.now hr hnew with ⟨n, -, he⟩ | ⟨-, he⟩
        · rw [gate_resume_refresh (pending?_last (refresh_wait he).2 rfl hx)]
        · rw [result?_after (refresh_done he).2] at hx
          cases hx
  at_once hf := by
    rcases refresh_of_newer rules.cache s.now hr hnew with ⟨n, hn, -⟩ | ⟨-, he⟩
    · cases hf.symm.trans hn
    · exact ends_nil (refresh_done he).2
  joins n hf l := by
    obtain ⟨-, hp, ht⟩ := refresh_joins rules hs.tracked hf
    exact waits_or_ends (tracked_after hs.tracked [.call (.refresh seen)]) hp rfl ht l
  ends l x h := h.of_newer hs hr hnew
  answers := by
    constructor
    · -- If a fetch were under way, it might fail, and the call with it.
      intro h
      by_contra hf
      obtain ⟨n, hn⟩ := Option.ne_none_iff_exists'.mp hf
      obtain ⟨r', he, -⟩ := h.2 _ _ (ends_joined rules hs.tracked hn (.error (.status seen.issuer 503)))
      cases he
    · intro hf
      refine ⟨startedBy_refresh hr hnew, fun l x h => ?_⟩
      rcases h.of_newer hs hr hnew with ⟨r', rfl, -, hlt⟩ | ⟨n, f, hn, -⟩
      · exact ⟨r', rfl, hlt⟩
      · cases hf.symm.trans hn

/-- Records live for a moment. -/
def briefRules : GateRules := { abcRules with policy := ⟨150, 0, 60000, 1000, 0, 1000, 0⟩ }

def firstRecord : Record := { abcRecord with expiresAt := 150, usableUntil := 1150 }

def secondRecord : Record := { firstRecord with generation := 2 }

def rotation : List Action :=
  [.call (.get "https://idp.example/abc"), .land ⟨"https://idp.example/abc", 0⟩ (.ok abcDocument), .resume 0,
    .call (.refresh firstRecord), .land ⟨"https://idp.example/abc", 1⟩ (.ok abcDocument), .resume 1]

theorem findsNewer_rotation :
    firstRecord.generation < secondRecord.generation ∧
      FindsNewer briefRules (after briefRules { epoch := 0 } rotation) firstRecord secondRecord := by
  have hlt : firstRecord.generation < secondRecord.generation := by decide
  refine ⟨hlt, findsNewer ⟨0, rotation, rfl⟩ ?_ hlt⟩
  decide +kernel

def swept : List Action := rotation ++ [.pass 100, .call (.sweep 100 []), .pass 10]

theorem not_answersNewer_swept :
    Returned briefRules { epoch := 0 } swept firstRecord ∧
      (after briefRules { epoch := 0 } swept).gate.cache.record? firstRecord.issuer = some secondRecord ∧
        firstRecord.generation < secondRecord.generation ∧
          (after briefRules { epoch := 0 } swept).Ends briefRules (.refresh firstRecord)
              [.land ⟨firstRecord.issuer, 2⟩ (.error (.status firstRecord.issuer 503)), .resume 3]
              (.record (.error (.unreachable (.status firstRecord.issuer 503)))) ∧
            ¬AnswersNewer briefRules (after briefRules { epoch := 0 } swept) firstRecord := by
  have hfirst : (after briefRules { epoch := 0 } (swept.take 3)).result? 0 = some (.record (.ok firstRecord)) := by
    decide +kernel
  have hsecond :
      (after briefRules { epoch := 0 } swept).gate.cache.record? firstRecord.issuer = some secondRecord := by
    decide +kernel
  have hf : ((after briefRules { epoch := 0 } swept).gate.cache.slot firstRecord.issuer).flight = some 2 := by
    decide +kernel
  have hid : (after briefRules { epoch := 0 } swept).calls.length = 3 := by
    decide +kernel
  have hends := ends_joined briefRules (tracked_after .empty swept) hf (.error (.status firstRecord.issuer 503))
  rw [hid] at hends
  refine ⟨⟨swept.take 3, List.take_prefix 3 swept, .inl ⟨0, hfirst⟩⟩, hsecond, by decide, hends, fun h => ?_⟩
  obtain ⟨r, he, -⟩ := h.2 _ _ hends
  cases he

end Run

end BearerGate
