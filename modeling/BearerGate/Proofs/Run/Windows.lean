import BearerGate.Proofs.Cache.Windows
import BearerGate.Proofs.Run.Acceptance
import BearerGate.Proofs.Run.Waiting

namespace BearerGate

open Cache

namespace Run

variable {rules : GateRules} {s : Run} {l : List Action} {id : Nat} {t : Ticket} {i url : Text} {r : Record}
  {x : Result}

theorem generation_le_after (rules : GateRules) (s : Run) (l : List Action) :
    s.gate.cache.generation ≤ (after rules s l).gate.cache.generation :=
  cache_invariant (P := fun c => s.gate.cache.generation ≤ c.generation)
    (fun _ _ _ _ hc h => (Changes.generation (.single hc)).symm ▸ h)
    (fun _ _ _ _ _ h => Nat.le_add_right_of_le h) (Nat.le_refl _) l

theorem Landed.windowed (h : Landed rules s l i (.ok r)) :
    (∃ built, s.now ≤ built ∧ r.Windowed rules.policy built) ∧
      s.gate.cache.generation < r.generation ∧
        r.generation ≤ (after rules s l).gate.cache.generation := by
  obtain ⟨t, rfl, l₁, result, l₂, rfl, hf, ho⟩ := h
  obtain ⟨hw, hg, hd⟩ := outcome_windowed ho.symm
  refine ⟨⟨_, now_le_after rules s l₁, hw⟩, ?_, ?_⟩
  · rw [hg]
    exact Nat.lt_succ_of_le (generation_le_after rules s l₁)
  · have hland : ((after rules s l₁).step rules (.land t result)).gate.cache.generation = r.generation := by
      rw [step_land hf, hg, ← hd]
      rfl
    rw [after_append, after_cons, ← hland]
    exact generation_le_after rules _ l₂

/-- The record of an issuer that is not evicted gives way only to one that was fetched since. -/
theorem record?_after (hl : ∀ a ∈ l, ¬a.Evicts rules i) :
    (after rules s l).gate.cache.record? i = s.gate.cache.record? i ∨
      ∃ r, (after rules s l).gate.cache.record? i = some r ∧ Landed rules s l i (.ok r) := by
  induction l using List.reverseRecOn with
  | nil => exact .inl rfl
  | append_singleton l a ih =>
      have hkeep : ((after rules s l).step rules a).gate.cache.record? i =
          (after rules s l).gate.cache.record? i ∨
            ∃ r, ((after rules s l).step rules a).gate.cache.record? i = some r ∧
              Landed rules s (l ++ [a]) i (.ok r) := by
        rcases step_cache rules (after rules s l) a with ⟨t, result, rfl, ht, he⟩ | hc
        · rw [he]
          rcases record?_land rules.policy (after rules s l).now t result (after rules s l).gate.cache i with
            hold | ⟨hi, r, ho, hr⟩
          · exact .inl hold
          · exact .inr ⟨r, hr, t, hi, l, result, [], rfl, ht, hi ▸ ho.symm⟩
        · exact .inl (hc.record? (hl a (by simp)))
      rw [after_concat]
      rcases hkeep with hkeep | hnew
      · rw [hkeep]
        rcases ih fun b hb => hl b (List.mem_append_left _ hb) with hold | ⟨r, hr, t, ht, hland⟩
        · exact .inl hold
        · exact .inr ⟨r, hr, t, ht, hland.append [a]⟩
      · exact .inr hnew

theorem pending?_get (hp : s.pending? id = some (.get t)) (hnone : (after rules s l).result? id = none) :
    (after rules s l).pending? id = some (.get t) :=
  pending?_last hp rfl hnone

theorem Ends.get_waiting (h : s.Ends rules (.get url) l x) (hc : s.gate.cache.Tracked)
    (hp : (s.step rules (.call (.get url))).pending? s.calls.length = some (.get t))
    (ht : (s.step rules (.call (.get url))).InFlight t) :
    ∃ l' o, l = l' ++ [.resume s.calls.length] ∧ Lands rules s (.call (.get url) :: l') t o ∧
      x = .record ((after rules s (.call (.get url) :: l')).gate.cache.finishGet
        (after rules s (.call (.get url) :: l')).now t.issuer o).2 := by
  obtain ⟨l', o, hl, hland, hx⟩ := h.waiting hc hp rfl ht
  exact ⟨l', o, hl, hland, (Call.ended.inj hx).symm⟩

theorem get_done {c : Cache} {a : Except AuthFault Record}
    (h : s.gate.cache.get rules.cache s.now url = (c, .done a)) :
    (s.step rules (.call (.get url))).gate.cache = c ∧
      (s.step rules (.call (.get url))).result? s.calls.length = some (.record a) := by
  constructor
  · simp only [step, Gate.start, h, Gate.ofLookup]
  · simp [step, Gate.start, h, Gate.ofLookup, result?, Call.result?]

theorem get_wait (hc : s.gate.cache.Tracked) (h : (s.gate.cache.get rules.cache s.now url).2 = .wait t) :
    (s.step rules (.call (.get url))).pending? s.calls.length = some (.get t) ∧
      (s.step rules (.call (.get url))).InFlight t := by
  have hf := hc.get_wait h
  generalize hx : s.gate.cache.get rules.cache s.now url = y at h hf
  obtain ⟨c, reply⟩ := y
  obtain rfl : reply = .wait t := h
  constructor
  · simp [step, Gate.start, hx, Gate.ofLookup, pending?, Call.pending?]
  · simp only [InFlight, step, Gate.start, hx, Gate.ofLookup]
    exact hf

/-- A lookup that begins in the state keeps to the windows of the records of the issuer. It returns a fresh
record at once and starts no fetch, even if one is under way; otherwise it waits for one fetch. A record that
stays usable and is not evicted is returned, or a later one; what is returned is usable or has just been
fetched; and the lookup fails only with the failure of its fetch, or with one that pends, when no usable
record is left. -/
structure KeepsWindows (rules : GateRules) (s : Run) (url i : Text) : Prop where
  fresh : ∀ r, s.gate.cache.record? i = some r → r.isFresh s.now = true →
    s.Ends rules (.get url) [] (.record (.ok r)) ∧
      (s.step rules (.call (.get url))).gate.cache.flights = s.gate.cache.flights ∧
        ∀ j, (s.step rules (.call (.get url))).gate.cache.slot j = s.gate.cache.slot j
  waits : ∀ l, (∃ x, (after rules s (.call (.get url) :: l)).result? s.calls.length = some x) ∨
    ∃ t, t.issuer = i ∧ (after rules s (.call (.get url) :: l)).pending? s.calls.length = some (.get t) ∧
      ((after rules s (.call (.get url) :: l)).InFlight t ∨
        ∃ x, ((after rules s (.call (.get url) :: l)).step rules (.resume s.calls.length)).result?
          s.calls.length = some x)
  usable : ∀ r l x, s.gate.cache.record? i = some r → s.Ends rules (.get url) l x →
    (∀ a ∈ l, ¬a.Evicts rules i) → r.isUsable (after rules s (.call (.get url) :: l)).now = true →
    ∃ r', x = .record (.ok r') ∧ (r' = r ∨ r.generation < r'.generation)
  returned : ∀ r l, s.Ends rules (.get url) l (.record (.ok r)) →
    r.isUsable (after rules s (.call (.get url) :: l)).now = true ∨
      Landed rules s (.call (.get url) :: l) i (.ok r)
  unreachable : ∀ f l, s.Ends rules (.get url) l (.record (.error f)) →
    ∃ g, f = .unreachable g ∧
      (∀ r, (after rules s (.call (.get url) :: l)).gate.cache.record? i = some r →
        r.isUsable (after rules s (.call (.get url) :: l)).now = false) ∧
      ((∃ t, t.issuer = i ∧ (s.step rules (.call (.get url))).pending? s.calls.length = some (.get t) ∧
          Lands rules s (.call (.get url) :: l) t (.error g)) ∨
        (s.gate.cache.slot i).pendingFault? s.now = some g)

/-- How a lookup of the issuer that begins in `s` ends in `e`, after the actions. -/
inductive LookupEnds (rules : GateRules) (s e : Run) (url i : Text) (l : List Action) :
    Except AuthFault Record → Prop
  | atHand (r : Record) (count : Tally → Tally) (hl : l = [])
      (ha : atHand? s.now (s.gate.cache.slot i) = some (r, count)) : LookupEnds rules s e url i l (.ok r)
  | pends (g : FetchFault) (ha : atHand? s.now (s.gate.cache.slot i) = none)
      (hg : (s.gate.cache.slot i).pendingFault? s.now = some g)
      (hu : ∀ r, e.gate.cache.record? i = some r → r.isUsable e.now = false) :
      LookupEnds rules s e url i l (.error (.unreachable g))
  | fetched (r : Record) (hland : Landed rules s (.call (.get url) :: l) i (.ok r)) :
      LookupEnds rules s e url i l (.ok r)
  | stale (r : Record) (hr : e.gate.cache.record? i = some r) (hu : r.isUsable e.now = true) :
      LookupEnds rules s e url i l (.ok r)
  | failed (t : Ticket) (g : FetchFault) (ht : t.issuer = i)
      (ha : atHand? s.now (s.gate.cache.slot i) = none)
      (hp : (s.step rules (.call (.get url))).pending? s.calls.length = some (.get t))
      (hland : Lands rules s (.call (.get url) :: l) t (.error g))
      (hu : ∀ r, e.gate.cache.record? i = some r → r.isUsable e.now = false) :
      LookupEnds rules s e url i l (.error (.unreachable g))

theorem resume_frame (rules : GateRules) (s : Run) (id : Nat) (i : Text) :
    (s.step rules (.resume id)).now = s.now ∧
      (s.step rules (.resume id)).gate.cache.record? i = s.gate.cache.record? i := by
  constructor
  · exact (clock_step rules s (.resume id)).2
  · rcases step_cache rules s (.resume id) with ⟨_, _, hne, -⟩ | hchanges
    · cases hne
    · exact hchanges.record? not_false

theorem Ends.lookup {j : TrustedIssuer} (h : s.Ends rules (.get url) l x) (hc : s.gate.cache.Tracked)
    (hj : rules.trust.resolve? url = some j) :
    ∃ a, x = .record a ∧ LookupEnds rules s (after rules s (.call (.get url) :: l)) url j.url l a := by
  rcases get_settles rules.cache s.now s.gate.cache hj with
    ⟨r, count, ha, hget⟩ | ⟨ha, ⟨t, ht, hget⟩ | ⟨g, hg, hu, hget⟩⟩
  · obtain ⟨hl, rfl⟩ := h.at_once (get_done hget).2
    exact ⟨_, rfl, .atHand r count hl ha⟩
  · obtain ⟨hp, hf⟩ := get_wait hc hget
    obtain ⟨l', o, rfl, hland, rfl⟩ := h.get_waiting hc hp hf
    refine ⟨_, rfl, ?_⟩
    obtain ⟨hnow, hrecord⟩ :=
      resume_frame rules (after rules s (.call (.get url) :: l')) s.calls.length j.url
    rw [← after_concat, List.cons_append] at hnow hrecord
    have hland := hland.append [.resume s.calls.length]
    cases o with
    | ok r => exact .fetched r ⟨t, ht, hland⟩
    | error g =>
        rw [← hnow, ht]
        rcases finishGet_cases (after rules s (.call (.get url) :: (l' ++ [.resume s.calls.length]))).now
            j.url g (after rules s (.call (.get url) :: l')).gate.cache with ⟨r, hr, hu, he⟩ | ⟨hu, he⟩
        · rw [he]
          exact .stale r (hrecord.trans hr) hu
        · rw [he]
          exact .failed t g ht ha hp hland fun r hr => hu r (hrecord.symm.trans hr)
  · obtain ⟨hcache, hx⟩ := get_done hget
    obtain ⟨rfl, rfl⟩ := h.at_once hx
    refine ⟨_, rfl, .pends g ha hg fun r hr => hu r ?_⟩
    rw [after_cons, after, List.foldl_nil, hcache, record?, slot_touch] at hr
    exact hr

theorem Reachable.windowed (hs : s.Reachable rules) (hr : s.gate.cache.record? i = some r) :
    (∃ built, r.Windowed rules.policy built) ∧ r.generation ≤ s.gate.cache.generation := by
  obtain ⟨epoch, l, rfl⟩ := hs
  obtain ⟨⟨built, -, hw⟩, -, hg⟩ := ((sound_after rules epoch l).cache.record? hr).windowed
  exact ⟨⟨built, hw⟩, hg⟩

theorem Reachable.tracked (hs : s.Reachable rules) : s.gate.cache.Tracked := by
  obtain ⟨epoch, l, rfl⟩ := hs
  exact tracked_after .empty l

section Lookup

variable {j : TrustedIssuer} {a : Except AuthFault Record}

theorem get_fresh (hj : rules.trust.resolve? url = some j) (hr : s.gate.cache.record? j.url = some r)
    (hf : r.isFresh s.now = true) :
    s.Ends rules (.get url) [] (.record (.ok r)) ∧
      (s.step rules (.call (.get url))).gate.cache.flights = s.gate.cache.flights ∧
        ∀ i, (s.step rules (.call (.get url))).gate.cache.slot i = s.gate.cache.slot i := by
  have ha := atHand?_of_isFresh hr hf
  rcases get_settles rules.cache s.now s.gate.cache hj with ⟨r', count, ha', hget⟩ | ⟨hnone, -⟩
  · obtain ⟨rfl, rfl⟩ := Prod.mk.inj (Option.some.inj (ha.symm.trans ha'))
    obtain ⟨hcache, hx⟩ := get_done hget
    rw [hcache]
    exact ⟨ends_nil hx, rfl, fun i => slot_touch _ _ i⟩
  · rw [ha] at hnone
    cases hnone

theorem get_waits (hc : s.gate.cache.Tracked) (hj : rules.trust.resolve? url = some j) (l : List Action) :
    (∃ x, (after rules s (.call (.get url) :: l)).result? s.calls.length = some x) ∨
      ∃ t, t.issuer = j.url ∧ (after rules s (.call (.get url) :: l)).pending? s.calls.length = some (.get t) ∧
        ((after rules s (.call (.get url) :: l)).InFlight t ∨
          ∃ x, ((after rules s (.call (.get url) :: l)).step rules (.resume s.calls.length)).result?
            s.calls.length = some x) := by
  rw [after_cons]
  rcases get_settles rules.cache s.now s.gate.cache hj with
    ⟨r, count, -, hget⟩ | ⟨-, ⟨t, ht, hget⟩ | ⟨g, -, -, hget⟩⟩
  · exact .inl ⟨_, result?_after (get_done hget).2 l⟩
  · obtain ⟨hp, hf⟩ := get_wait hc hget
    cases hx : (after rules (s.step rules (.call (.get url))) l).result? s.calls.length with
    | some x => exact .inl ⟨x, rfl⟩
    | none =>
        have hp' := pending?_get hp hx
        refine .inr ⟨t, ht, hp', ?_⟩
        apply (inFlight_or_lands (tracked_after hc [.call (.get url)]) hf l).imp_right
        rintro ⟨o, -, ho⟩
        exact ⟨_, result?_resume hp' ho rfl⟩
  · exact .inl ⟨_, result?_after (get_done hget).2 l⟩

theorem record?_later (hg : r.generation ≤ s.gate.cache.generation) (hr : s.gate.cache.record? i = some r)
    (hl : ∀ a ∈ l, ¬a.Evicts rules i) {r' : Record} (hr' : (after rules s l).gate.cache.record? i = some r') :
    r' = r ∨ r.generation < r'.generation := by
  rcases record?_after hl with hold | ⟨r'', hr'', hlanded⟩
  · rw [hold, hr] at hr'
    exact .inl (Option.some.inj hr').symm
  · obtain rfl := Option.some.inj (hr'.symm.trans hr'')
    exact .inr (Nat.lt_of_le_of_lt hg hlanded.windowed.2.1)

/-- A record that comes in place of a stale one is usable for longer. -/
theorem usable_after {built : Millis} (hw : r.Windowed rules.policy built)
    (hr : s.gate.cache.record? i = some r) (hstale : r.isFresh s.now = false)
    (hl : ∀ a ∈ l, ¬a.Evicts rules i) (hu : r.isUsable (after rules s l).now = true) :
    ∃ r', (after rules s l).gate.cache.record? i = some r' ∧ r'.isUsable (after rules s l).now = true := by
  rcases record?_after hl with hold | ⟨r', hr', hlanded⟩
  · exact ⟨r, hold.trans hr, hu⟩
  · obtain ⟨⟨built', hb, hw'⟩, -⟩ := hlanded.windowed
    exact ⟨r', hr', hw.isUsable_of_stale hw' hstale hb hu⟩

theorem LookupEnds.usable (h : LookupEnds rules s (after rules s (.call (.get url) :: l)) url i l a)
    (hs : s.Reachable rules) (hr : s.gate.cache.record? i = some r) (hl : ∀ a ∈ l, ¬a.Evicts rules i)
    (hu : r.isUsable (after rules s (.call (.get url) :: l)).now = true) :
    ∃ r', a = .ok r' ∧ (r' = r ∨ r.generation < r'.generation) := by
  obtain ⟨⟨built, hw⟩, hg⟩ := hs.windowed hr
  have hl' : ∀ a ∈ Action.call (.get url) :: l, ¬a.Evicts rules i := List.forall_mem_cons.mpr ⟨id, hl⟩
  cases h with
  | atHand r' count _ ha =>
      obtain rfl := Option.some.inj (hr.symm.trans (atHand?_record ha))
      exact ⟨r, rfl, .inl rfl⟩
  | fetched r' hlanded => exact ⟨r', rfl, .inr (Nat.lt_of_le_of_lt hg hlanded.windowed.2.1)⟩
  | stale r' hr' _ => exact ⟨r', rfl, record?_later hg hr hl' hr'⟩
  | pends g ha _ hnone | failed t g _ ha _ _ hnone =>
      obtain ⟨r', hr', hu'⟩ := usable_after hw hr (stale_of_atHand? ha hr) hl' hu
      rw [hnone r' hr'] at hu'
      cases hu'

theorem LookupEnds.returned (h : LookupEnds rules s (after rules s (.call (.get url) :: l)) url i l (.ok r))
    (hs : s.Reachable rules) :
    r.isUsable (after rules s (.call (.get url) :: l)).now = true ∨
      Landed rules s (.call (.get url) :: l) i (.ok r) := by
  cases h with
  | atHand _ count hl ha =>
      subst hl
      obtain ⟨⟨built, hw⟩, -⟩ := hs.windowed (atHand?_record ha)
      exact .inl ((atHand?_usable ha).elim hw.isUsable_of_isFresh id)
  | fetched _ hlanded => exact .inr hlanded
  | stale _ _ hu => exact .inl hu

theorem LookupEnds.unreachable {e : Run} {f : AuthFault} (h : LookupEnds rules s e url i l (.error f)) :
    ∃ g, f = .unreachable g ∧ (∀ r, e.gate.cache.record? i = some r → r.isUsable e.now = false) ∧
      ((∃ t, t.issuer = i ∧ (s.step rules (.call (.get url))).pending? s.calls.length = some (.get t) ∧
          Lands rules s (.call (.get url) :: l) t (.error g)) ∨
        (s.gate.cache.slot i).pendingFault? s.now = some g) := by
  cases h with
  | pends g _ hg hu => exact ⟨g, rfl, hu, .inr hg⟩
  | failed t g ht _ hp hland hu => exact ⟨g, rfl, hu, .inl ⟨t, ht, hp, hland⟩⟩

/-- A lookup returns a fresh record at once, falls back on a usable one when its fetch fails, and fails only
when there is none. -/
theorem keepsWindows (hs : s.Reachable rules) (hj : rules.trust.resolve? url = some j) :
    KeepsWindows rules s url j.url where
  fresh _ hr hf := get_fresh hj hr hf
  waits l := get_waits hs.tracked hj l
  usable r l x hr h hl hu := by
    obtain ⟨a, rfl, ha⟩ := h.lookup hs.tracked hj
    obtain ⟨r', rfl, hr'⟩ := ha.usable hs hr hl hu
    exact ⟨r', rfl, hr'⟩
  returned r l h := by
    obtain ⟨a, he, ha⟩ := h.lookup hs.tracked hj
    obtain rfl := Result.record.inj he
    exact ha.returned hs
  unreachable f l h := by
    obtain ⟨a, he, ha⟩ := h.lookup hs.tracked hj
    obtain rfl := Result.record.inj he
    exact ha.unreachable

end Lookup

def staleRun : List Action :=
  [.call (.get "https://idp.example/abc"), .land ⟨"https://idp.example/abc", 0⟩ (.ok abcDocument),
    .resume 0, .pass 3700000]

theorem keepsWindows_stale :
    ((after abcRules { epoch := 0 } staleRun).gate.cache.record? "https://idp.example/abc").map
        (fun r => (r.isFresh (after abcRules { epoch := 0 } staleRun).now,
          r.isUsable (after abcRules { epoch := 0 } staleRun).now)) = some (false, true) ∧
      KeepsWindows abcRules (after abcRules { epoch := 0 } staleRun) "HTTPS://IDP.example/abc/"
        "https://idp.example/abc" := by
  have hj : abcRules.trust.resolve? "HTTPS://IDP.example/abc/" =
      some ⟨"https://idp.example/abc", .tenant "t"⟩ := by
    decide +kernel
  constructor
  · decide +kernel
  · exact keepsWindows ⟨0, staleRun, rfl⟩ hj

end Run

end BearerGate
