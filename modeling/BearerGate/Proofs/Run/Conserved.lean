import BearerGate.Proofs.Run.Counts
import BearerGate.Proofs.Run.Generations

namespace BearerGate

open Cache

theorem Cache.Changes.flights_prefix {E : Text → Prop} {p : CachePolicy} {now : Millis} {c c' : Cache}
    (h : Changes E p now c c') : c.flights <+: c'.flights := by
  induction h with
  | refl => exact List.prefix_refl _
  | tail _ h ih =>
      cases h with
      | touch | count | evict => exact ih
      | depart => exact ih.trans (List.prefix_append _ _)

namespace Run

variable {rules : GateRules} {epoch : Int} {s : Run} {l : List Action} {a : Action} {id : Nat}

theorem zip_set {β γ : Type} {xs : List β} {n : Nat} {x : β} (hx : xs[n]? = some x) (ys : List γ) (y : γ) :
    xs.zip (ys.set n y) = (xs.zip ys).set n (x, y) := by
  induction xs generalizing ys n with
  | nil => cases hx
  | cons u xs ih =>
      cases ys with
      | nil => rfl
      | cons w ys =>
          cases n with
          | zero =>
              obtain rfl := Option.some.inj hx
              rfl
          | succ n => rw [List.set_cons_succ, List.zip_cons_cons, List.zip_cons_cons, List.set_cons_succ, ih hx]

def docket (rules : GateRules) (epoch : Int) (l : List Action) : List (Request × Call) :=
  (requests l).zip (after rules { epoch := epoch } l).calls

theorem length_docket (rules : GateRules) (epoch : Int) (l : List Action) :
    (docket rules epoch l).length = (requests l).length := by
  rw [docket, List.length_zip, length_calls, Nat.min_self]

theorem docket_call (rules : GateRules) (epoch : Int) (l : List Action) (r : Request) :
    docket rules epoch (l ++ [.call r]) = docket rules epoch l ++
      [(r, ((after rules { epoch := epoch } l).gate.start rules (after rules { epoch := epoch } l).now
        (after rules { epoch := epoch } l).unix r).2)] := by
  rw [docket, after_concat, requests_concat, docket]
  exact List.zip_append (length_calls rules epoch l).symm

theorem docket_resume {p : Pending} {o : Outcome} {r : Request}
    (hp : (after rules { epoch := epoch } l).pending? id = some p)
    (ho : (after rules { epoch := epoch } l).gate.cache.outcome? p.ticket = some o)
    (hr : (requests l)[id]? = some r) :
    docket rules epoch (l ++ [.resume id]) = (docket rules epoch l).set id
      (r, ((after rules { epoch := epoch } l).gate.proceed rules (after rules { epoch := epoch } l).now
        (after rules { epoch := epoch } l).unix o p).2) := by
  have hnone : (Action.resume id).request? = none := rfl
  rw [docket, after_concat, requests_concat, hnone, Option.toList_none, List.append_nil, step_resume hp ho]
  exact zip_set hr _ _

theorem action_cases (rules : GateRules) (s : Run) (a : Action) :
    (∃ r, a = .call r) ∨
      (∃ id p o, a = .resume id ∧ s.pending? id = some p ∧ s.gate.cache.outcome? p.ticket = some o) ∨
        a.request? = none ∧ (s.step rules a).calls = s.calls ∧ retrievedBy rules s a = [] ∧
          (s.step rules a).gate.attempts = s.gate.attempts := by
  cases a with
  | pass d => exact .inr (.inr ⟨rfl, rfl, rfl, rfl⟩)
  | call r => exact .inl ⟨r, rfl⟩
  | land t result =>
      refine .inr (.inr ⟨rfl, calls_land rules s t result, rfl, ?_⟩)
      by_cases ht : s.InFlight t
      · rw [step_land ht]
      · rw [step_land_of_not ht]
  | resume id =>
      rcases goesOn_or_same rules s id with ⟨p, o, hp, ho⟩ | ⟨hsame, hretrieved⟩
      · exact .inr (.inl ⟨id, p, o, rfl, hp, ho⟩)
      · exact .inr (.inr ⟨rfl, by rw [hsame], hretrieved, by rw [hsame]⟩)

theorem docket_of_calls (hnone : a.request? = none)
    (hcalls : ((after rules { epoch := epoch } l).step rules a).calls =
      (after rules { epoch := epoch } l).calls) :
    docket rules epoch (l ++ [a]) = docket rules epoch l := by
  rw [docket, after_concat, hcalls, requests_concat, hnone, Option.toList_none, List.append_nil, docket]

theorem docket_waiting {p : Pending} {r : Request} (hp : (after rules { epoch := epoch } l).pending? id = some p)
    (hr : (requests l)[id]? = some r) : (docket rules epoch l)[id]? = some (r, .waiting p) := by
  rw [docket, List.getElem?_zip_eq_some]
  exact ⟨hr, pending?_eq_some_iff.mp hp⟩

/-- The counters of the attempts, read off how the calls stand. -/
theorem number_after (rules : GateRules) (epoch : Int) (l : List Action) (k : Option Text) :
    (after rules { epoch := epoch } l).gate.attempts.number k =
      (docket rules epoch l).countP fun x => x.2.isCountedAs k x.1 := by
  induction l using List.reverseRecOn with
  | nil => cases k <;> rfl
  | append_singleton l a ih =>
      rcases action_cases rules (after rules { epoch := epoch } l) a with
        ⟨r, rfl⟩ | ⟨id, p, o, rfl, hp, ho⟩ | ⟨hnone, hcalls, -, hattempts⟩
      · have hnumber := Gate.start_number rules (after rules { epoch := epoch } l).now
          (after rules { epoch := epoch } l).unix k r (after rules { epoch := epoch } l).gate
        rw [docket_call, List.countP_append, List.countP_singleton, ← ih, after_concat]
        exact hnumber
      · obtain ⟨r, hr, hserves⟩ := serves_after hp
        have hnumber := Gate.proceed_number rules (after rules { epoch := epoch } l).now
          (after rules { epoch := epoch } l).unix k hserves o (after rules { epoch := epoch } l).gate
        obtain ⟨hlt, hget⟩ := List.getElem?_eq_some_iff.mp (docket_waiting hp hr)
        -- A call that waits has no verdict, so that nothing is taken away from the count.
        have hwaiting : (Call.waiting p).isCountedAs k r = false := Bool.and_false _
        rw [docket_resume hp ho hr, List.countP_set hlt, hget, hwaiting, ← ih, after_concat, step_resume hp ho]
        exact hnumber
      · rw [docket_of_calls hnone hcalls, ← ih, after_concat, hattempts]

theorem count_numbered (id n : Nat) (x : Option Lookup) :
    ((x.map (n, ·)).toList.map Prod.fst).count id = if n = id ∧ x.isSome then 1 else 0 := by
  cases x <;> simp [List.count_singleton]

/-- How often the lookup of the call has returned a record, read off how the call stands. -/
theorem count_retrievals (rules : GateRules) (epoch : Int) (l : List Action) (id : Nat) :
    ((retrievals rules { epoch := epoch } l).map Prod.fst).count id =
      if (docket rules epoch l)[id]?.any fun x => x.1.hasRecord x.2 then 1 else 0 := by
  induction l using List.reverseRecOn with
  | nil => rfl
  | append_singleton l a ih =>
      rw [retrievals, trace_concat, List.map_append, List.count_append, ← retrievals, ih]
      rcases action_cases rules (after rules { epoch := epoch } l) a with
        ⟨r, rfl⟩ | ⟨n, p, o, rfl, hp, ho⟩ | ⟨hnone, hcalls, hretrieved, -⟩
      · have hrecord := Gate.start_hasRecord rules (after rules { epoch := epoch } l).now
          (after rules { epoch := epoch } l).unix r (after rules { epoch := epoch } l).gate
        rw [docket_call, retrievedBy, count_numbered, length_calls, ← length_docket rules epoch l, ← hrecord]
        by_cases hid : (docket rules epoch l).length = id
        · subst hid
          simp
        · have hother : ∀ y, (docket rules epoch l ++ [y])[id]? = (docket rules epoch l)[id]? := by
            intro y
            rw [List.getElem?_append]
            split
            · rfl
            · rw [List.getElem?_singleton, if_neg (by omega), List.getElem?_eq_none (by omega)]
          simp [hother, hid]
      · obtain ⟨r, hr, hserves⟩ := serves_after hp
        have hrecord := Gate.proceed_hasRecord rules (after rules { epoch := epoch } l).now
          (after rules { epoch := epoch } l).unix hserves o (after rules { epoch := epoch } l).gate
        have hwaiting := docket_waiting hp hr
        rw [docket_resume hp ho hr, retrievedBy_resume hp ho, count_numbered]
        by_cases hid : n = id
        · subst hid
          rw [List.getElem?_set_self (List.getElem?_eq_some_iff.mp hwaiting).1, hwaiting, Option.any_some,
            Option.any_some, hrecord]
          cases hcompleted : (after rules { epoch := epoch } l).gate.completed?
              (after rules { epoch := epoch } l).now o p with
          | none => simp
          | some x =>
              -- The lookup was still open, so that this is the first record.
              have hasked : p.asked? ≠ none := by simp [(Gate.completed?_eq_some hcompleted).2.2]
              simp [Gate.hasRecord_of_asked hserves hasked]
        · rw [List.getElem?_set_ne hid]
          simp [hid]
      · rw [docket_of_calls hnone hcalls, hretrieved]
        rfl

theorem startedBy_of_changes (hc : s.gate.cache.Tracked)
    (h : Changes (a.Evicts rules) rules.policy s.now s.gate.cache (s.step rules a).gate.cache) :
    (s.step rules a).gate.cache.flights = s.gate.cache.flights ++ startedBy rules s a := by
  obtain ⟨new, hnew⟩ := h.flights_prefix
  have hnodup := (hc.changes h).nodup
  have hadded : new.filter (fun f => ¬s.InFlight f.1) = new := by
    rw [← hnew, List.map_append] at hnodup
    rw [List.filter_eq_self]
    intro f hf
    have hout : ¬s.InFlight f.1 := fun hin => (List.disjoint_of_nodup_append hnodup) hin (List.mem_map_of_mem hf)
    exact decide_eq_true hout
  rw [startedBy, ← hnew, List.filter_append, filter_not_inFlight, hadded, List.nil_append]

theorem flights_landed (rules : GateRules) (hc : s.gate.cache.Tracked) {t : Ticket} (ht : s.InFlight t)
    (result : Except FetchFault Document) :
    (storedBy rules s (.land t result)).length + (failedBy rules s (.land t result)).length = 1 ∧
      (s.step rules (.land t result)).gate.cache.flights.length + 1 = s.gate.cache.flights.length := by
  constructor
  · rw [storedBy, failedBy, if_pos ht, if_pos ht]
    cases outcome rules.policy s.now t.issuer s.gate.cache.generation result <;> rfl
  · have herase : (s.gate.cache.flights.map Prod.fst).filter (· ≠ t) =
        (s.gate.cache.flights.map Prod.fst).erase t := by
      rw [hc.nodup.erase_eq_filter]
      exact List.filter_congr fun u _ => by rw [Bool.eq_iff_iff, decide_eq_true_iff, bne_iff_ne]
    have hpos := List.length_pos_of_mem ht
    rw [step_land ht, ← List.length_map Prod.fst, flights_land, herase, List.length_erase_of_mem ht,
      Nat.sub_add_cancel hpos, List.length_map]

theorem flights_step (rules : GateRules) (hc : s.gate.cache.Tracked) (a : Action) :
    (storedBy rules s a).length + (failedBy rules s a).length + (s.step rules a).gate.cache.flights.length =
      s.gate.cache.flights.length + (startedBy rules s a).length := by
  by_cases hlands : ∃ t result, a = .land t result ∧ s.InFlight t
  · obtain ⟨t, result, rfl, ht⟩ := hlands
    obtain ⟨hended, hflights⟩ := flights_landed rules hc ht result
    rw [startedBy_land, hended, ← hflights, Nat.add_comm]
    rfl
  · have hquiet : storedBy rules s a = [] ∧ failedBy rules s a = [] := by
      cases a with
      | pass | call | resume => exact ⟨rfl, rfl⟩
      | land t result =>
          have ht : ¬s.InFlight t := fun ht => hlands ⟨t, result, rfl, ht⟩
          rw [storedBy, failedBy, if_neg ht, if_neg ht]
          exact ⟨rfl, rfl⟩
    rcases step_cache rules s a with ⟨t, result, ha, ht, -⟩ | h
    · exact absurd ⟨t, result, ha, ht⟩ hlands
    · rw [hquiet.1, hquiet.2, startedBy_of_changes hc h, List.length_append]
      exact Nat.zero_add _

theorem length_starts (rules : GateRules) (epoch : Int) (l : List Action) :
    (starts rules { epoch := epoch } l).length =
      (stores rules { epoch := epoch } l).length + (failures rules { epoch := epoch } l).length +
        (after rules { epoch := epoch } l).gate.cache.flights.length := by
  induction l using List.reverseRecOn with
  | nil => rfl
  | append_singleton l a ih =>
      have hc : (after rules { epoch := epoch } l).gate.cache.Tracked := tracked_after .empty l
      have hstep := flights_step rules hc a
      rw [starts, stores, failures, trace_concat, trace_concat, trace_concat, List.length_append, List.length_append,
        List.length_append, ← starts, ← stores, ← failures, after_concat, ih]
      omega

theorem record?_of_storedBy {x : Text × Record} (hx : x ∈ storedBy rules s a) :
    (s.step rules a).gate.cache.record? x.1 = some x.2 := by
  obtain ⟨t, result, rfl, ht, hi, ho⟩ := mem_storedBy.mp hx
  rw [step_land ht, hi]
  exact record?_land_of_ok ho

theorem result?_of_retrievals {x : Nat × Lookup} (hx : x ∈ retrievals rules { epoch := epoch } l) {url : Text}
    (hget : (requests l)[x.1]? = some (.get url)) :
    (after rules { epoch := epoch } l).result? x.1 = some (.record (.ok x.2.record)) := by
  induction l using List.reverseRecOn with
  | nil => cases hx
  | append_singleton l a ih =>
      have hold : ∀ r, (requests l)[x.1]? = some r → r = .get url := by
        intro r hr
        exact Option.some.inj ((getElem?_requests hr [a]).symm.trans hget)
      rw [retrievals, trace_concat, List.mem_append] at hx
      rw [after_concat]
      rcases hx with hx | hx
      · have hr := List.getElem?_eq_getElem (lt_of_retrievals hx)
        exact result?_step (ih hx (hold _ hr ▸ hr)) rules a
      · rcases retrievedBy_cases hx with ⟨r, rfl, hid, hanswered⟩ | ⟨p, o, rfl, hp, ho, hcompleted⟩
        · rw [requests_concat, hid, length_calls] at hget
          obtain rfl := Option.some.inj (List.getElem?_concat_length.symm.trans hget)
          rw [hid, result?_call, Gate.start_get hanswered]
          rfl
        · obtain ⟨r, hr, hserves⟩ := serves_after hp
          obtain rfl := hold r hr
          cases hserves
          exact result?_resume hp ho (Gate.proceed_get hcompleted)

theorem not_misses_of_isFreshAtCall {x : Nat × Lookup} (hx : x ∈ retrievals rules { epoch := epoch } l)
    (hfresh : isFreshAtCall rules epoch l x) :
    x.2.misses (after rules { epoch := epoch } l).gate.cache = false := by
  induction l using List.reverseRecOn with
  | nil => cases hx
  | append_singleton l a ih =>
      rw [retrievals, trace_concat, List.mem_append] at hx
      rw [after_concat]
      rcases hx with hx | hx
      · rw [isFreshAtCall_concat hx] at hfresh
        rw [misses_step (outcome?_of_retrievals hx)]
        exact ih hx hfresh
      · rw [isFreshAtCall_retrievedBy hx] at hfresh
        rw [misses_step (outcome?_of_retrievedBy hx)]
        exact Lookup.not_misses_of_hits hfresh

/-- The counters after the actions, each with what it stands for. The lookups are numbered by their calls, which
have records as the calls show: a lookup is a hit if its record was fresh when the call began, a miss if it is the
record of the fetch that the call has waited for, and stale otherwise. -/
structure Conserved (rules : GateRules) (epoch : Int) (l : List Action) : Prop where
  accepted : (after rules { epoch := epoch } l).gate.attempts.accepted =
    (docket rules epoch l).countP fun x => x.2.isCountedAs none x.1
  rejected : ∀ reason, ((after rules { epoch := epoch } l).gate.attempts.rejected.lookup reason).getD 0 =
    (docket rules epoch l).countP fun x => x.2.isCountedAs (some reason) x.1
  stored : (after rules { epoch := epoch } l).gate.cache.tally.stored = (stores rules { epoch := epoch } l).length
  kept : ∀ l₁ a l₂, l = l₁ ++ a :: l₂ → ∀ x ∈ storedBy rules (after rules { epoch := epoch } l₁) a,
    (after rules { epoch := epoch } (l₁ ++ [a])).gate.cache.record? x.1 = some x.2
  failed : (after rules { epoch := epoch } l).gate.cache.tally.failed = (failures rules { epoch := epoch } l).length
  started : (starts rules { epoch := epoch } l).length =
    (after rules { epoch := epoch } l).gate.cache.tally.stored +
      (after rules { epoch := epoch } l).gate.cache.tally.failed +
        (after rules { epoch := epoch } l).gate.cache.flights.length
  once : ((retrievals rules { epoch := epoch } l).map Prod.fst).Nodup
  returned : ∀ id, id ∈ (retrievals rules { epoch := epoch } l).map Prod.fst ↔
    ∃ r k, (docket rules epoch l)[id]? = some (r, k) ∧ r.hasRecord k
  gets : ∀ x ∈ retrievals rules { epoch := epoch } l, ∀ url, (requests l)[x.1]? = some (.get url) →
    (after rules { epoch := epoch } l).result? x.1 = some (.record (.ok x.2.record))
  hits : (after rules { epoch := epoch } l).gate.cache.tally.hits =
    (retrievals rules { epoch := epoch } l).countP fun x => isFreshAtCall rules epoch l x
  misses : (after rules { epoch := epoch } l).gate.cache.tally.misses =
    (retrievals rules { epoch := epoch } l).countP fun x =>
      x.2.misses (after rules { epoch := epoch } l).gate.cache
  disjoint : ∀ x ∈ retrievals rules { epoch := epoch } l, isFreshAtCall rules epoch l x →
    ¬x.2.misses (after rules { epoch := epoch } l).gate.cache
  stales : (after rules { epoch := epoch } l).gate.cache.tally.stales =
    (retrievals rules { epoch := epoch } l).countP fun x => !isFreshAtCall rules epoch l x &&
      !x.2.misses (after rules { epoch := epoch } l).gate.cache
  keyRefreshes : (after rules { epoch := epoch } l).gate.cache.tally.keyRefreshes =
    (retrievals rules { epoch := epoch } l).countP fun x => x.2.forces

theorem conserved (rules : GateRules) (epoch : Int) (l : List Action) : Conserved rules epoch l := by
  have htally := tally_after rules epoch l
  have hcount := count_retrievals rules epoch l
  refine
    { accepted := number_after rules epoch l none
      rejected := fun reason => number_after rules epoch l (some reason)
      stored := congrArg Tally.stored htally
      kept := fun l₁ a l₂ _ x hx => ?_
      failed := congrArg Tally.failed htally
      started := ?_
      once := ?_
      returned := fun id => ?_
      gets := fun x hx url hget => result?_of_retrievals hx hget
      hits := congrArg Tally.hits htally
      misses := congrArg Tally.misses htally
      disjoint := fun x hx hfresh => Bool.eq_false_iff.mp (not_misses_of_isFreshAtCall hx hfresh)
      stales := congrArg Tally.stales htally
      keyRefreshes := congrArg Tally.keyRefreshes htally }
  · rw [after_concat]
    exact record?_of_storedBy hx
  · rw [htally]
    exact length_starts rules epoch l
  · rw [List.nodup_iff_count_le_one]
    intro id
    rw [hcount]
    split
    · exact Nat.le_refl 1
    · exact Nat.zero_le 1
  · rw [← List.count_pos_iff, hcount]
    cases hget : (docket rules epoch l)[id]? with
    | none => simp
    | some x =>
        obtain ⟨r, k⟩ := x
        cases hrecord : r.hasRecord k <;> simp [hrecord]

end Run

end BearerGate
