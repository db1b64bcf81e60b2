import BearerGate.Proofs.Gate.Counts
import BearerGate.Proofs.Run.Isolation

namespace BearerGate

open Cache

namespace Run

variable {rules : GateRules} {epoch : Int} {s : Run} {l : List Action} {a : Action} {id : Nat}

def failedBy (rules : GateRules) (s : Run) : Action → List (Text × FetchFault)
  | .land t result =>
    if s.InFlight t then
      match outcome rules.policy s.now t.issuer s.gate.cache.generation result with
      | .ok _ => []
      | .error f => [(t.issuer, f)]
    else []
  | _ => []

def failures (rules : GateRules) : Run → List Action → List (Text × FetchFault) := trace rules (failedBy rules)

def retrievedBy (rules : GateRules) (s : Run) : Action → List (Nat × Lookup)
  | .call r => ((s.gate.answered? rules s.now r).map (s.calls.length, ·)).toList
  | .resume id =>
    (((s.pending? id).bind fun p => (s.gate.cache.outcome? p.ticket).bind fun o =>
      s.gate.completed? s.now o p).map (id, ·)).toList
  | _ => []

def retrievals (rules : GateRules) : Run → List Action → List (Nat × Lookup) := trace rules (retrievedBy rules)

def before : Nat → List Action → List Action
  | _, [] => []
  | 0, a :: l => if a.request?.isSome then [] else a :: before 0 l
  | id + 1, a :: l => a :: before (if a.request?.isSome then id else id + 1) l

theorem before_append (h : id < (requests l).length) (l' : List Action) : before id (l ++ l') = before id l := by
  induction l generalizing id with
  | nil => cases h
  | cons a l ih =>
      cases hr : a.request? with
      | none =>
          have h : id < (requests l).length := by simpa [requests, hr] using h
          cases id <;> simp [before, hr, ih h]
      | some r =>
          cases id with
          | zero => simp [before, hr]
          | succ n =>
              have h : n < (requests l).length := by simpa [requests, hr] using h
              simp [before, hr, ih h]

theorem before_concat (l : List Action) (r : Request) : before (requests l).length (l ++ [.call r]) = l := by
  induction l with
  | nil => rfl
  | cons a l ih =>
      cases hr : a.request? with
      | none =>
          have hlength : (requests (a :: l)).length = (requests l).length := by simp [requests, hr]
          rw [hlength]
          generalize (requests l).length = n at ih
          cases n <;> simp [before, hr, ih]
      | some r' =>
          have hlength : (requests (a :: l)).length = (requests l).length + 1 := by simp [requests, hr]
          rw [hlength]
          simp [before, hr, ih]

def began (rules : GateRules) (epoch : Int) (l : List Action) (id : Nat) : Run :=
  after rules { epoch := epoch } (before id l)

/-- The record that the lookup returns is in the slot and fresh when the call begins. -/
def isFreshAtCall (rules : GateRules) (epoch : Int) (l : List Action) (x : Nat × Lookup) : Bool :=
  (began rules epoch l x.1).gate.cache.record? x.2.issuer = some x.2.record &&
    x.2.record.isFresh (began rules epoch l x.1).now

theorem retrievedBy_resume {p : Pending} {o : Outcome} (hp : s.pending? id = some p)
    (ho : s.gate.cache.outcome? p.ticket = some o) :
    retrievedBy rules s (.resume id) = ((s.gate.completed? s.now o p).map (id, ·)).toList := by
  rw [retrievedBy, hp, Option.bind_some, ho, Option.bind_some]

theorem goesOn_or_same (rules : GateRules) (s : Run) (id : Nat) :
    (∃ p o, s.pending? id = some p ∧ s.gate.cache.outcome? p.ticket = some o) ∨
      s.step rules (.resume id) = s ∧ retrievedBy rules s (.resume id) = [] := by
  rw [retrievedBy]
  cases hp : s.pending? id with
  | none => exact .inr ⟨step_resume_of_none (by simp [hp]), rfl⟩
  | some p =>
      rw [Option.bind_some]
      cases ho : s.gate.cache.outcome? p.ticket with
      | none => exact .inr ⟨step_resume_waiting hp ho, rfl⟩
      | some o => exact .inl ⟨p, o, rfl, ho⟩

theorem elim_count (c : Cache) (now : Millis) (x : Option Lookup) (id : Nat) :
    x.elim c.tally (Lookup.count c now c.tally) =
      ⟨c.tally.hits + (x.map (id, ·)).toList.countP fun x => x.2.hits now,
        c.tally.misses + (x.map (id, ·)).toList.countP fun x => x.2.misses c,
        c.tally.stales + (x.map (id, ·)).toList.countP fun x => !x.2.hits now && !x.2.misses c,
        c.tally.stored, c.tally.failed,
        c.tally.keyRefreshes + (x.map (id, ·)).toList.countP fun x => x.2.forces⟩ := by
  cases x with
  | none => rfl
  | some x => simp [Lookup.count_eq, List.countP_cons]

theorem tally_step (rules : GateRules) (s : Run) (a : Action) :
    (s.step rules a).gate.cache.tally =
      ⟨s.gate.cache.tally.hits + (retrievedBy rules s a).countP fun x => x.2.hits s.now,
        s.gate.cache.tally.misses + (retrievedBy rules s a).countP fun x => x.2.misses s.gate.cache,
        s.gate.cache.tally.stales +
          (retrievedBy rules s a).countP fun x => !x.2.hits s.now && !x.2.misses s.gate.cache,
        s.gate.cache.tally.stored + (storedBy rules s a).length,
        s.gate.cache.tally.failed + (failedBy rules s a).length,
        s.gate.cache.tally.keyRefreshes + (retrievedBy rules s a).countP fun x => x.2.forces⟩ := by
  cases a with
  | pass d => rfl
  | call r => exact (Gate.start_tally rules s.now s.unix r s.gate).trans (elim_count _ _ _ _)
  | land t result =>
      by_cases ht : s.InFlight t
      · rw [step_land ht, storedBy, failedBy, if_pos ht, if_pos ht]
        simp only [land]
        cases outcome rules.policy s.now t.issuer s.gate.cache.generation result <;> rfl
      · rw [step_land_of_not ht, storedBy, failedBy, if_neg ht, if_neg ht]
        rfl
  | resume id =>
      rcases goesOn_or_same rules s id with ⟨p, o, hp, ho⟩ | ⟨hsame, hretrieved⟩
      · rw [step_resume hp ho, retrievedBy_resume hp ho]
        exact (Gate.proceed_tally rules s.now s.unix p ho).trans (elim_count _ _ _ id)
      · rw [hsame, hretrieved]
        rfl

theorem retrievedBy_cases {x : Nat × Lookup} (hx : x ∈ retrievedBy rules s a) :
    (∃ r, a = .call r ∧ x.1 = s.calls.length ∧ s.gate.answered? rules s.now r = some x.2) ∨
      ∃ p o, a = .resume x.1 ∧ s.pending? x.1 = some p ∧ s.gate.cache.outcome? p.ticket = some o ∧
        s.gate.completed? s.now o p = some x.2 := by
  cases a with
  | pass | land => cases hx
  | call r =>
      obtain ⟨y, hy, rfl⟩ := Option.map_eq_some_iff.mp (Option.mem_toList.mp hx)
      exact .inl ⟨r, rfl, rfl, hy⟩
  | resume id =>
      obtain ⟨y, hy, rfl⟩ := Option.map_eq_some_iff.mp (Option.mem_toList.mp hx)
      obtain ⟨p, hp, hy⟩ := Option.bind_eq_some_iff.mp hy
      obtain ⟨o, ho, hy⟩ := Option.bind_eq_some_iff.mp hy
      exact .inr ⟨p, o, rfl, hp, ho, hy⟩

theorem misses_step {x : Lookup} (h : ∀ t, x.fetch = some t → ∃ o, s.gate.cache.outcome? t = some o)
    (a : Action) : x.misses (s.step rules a).gate.cache = x.misses s.gate.cache := by
  cases hf : x.fetch with
  | none => simp [Lookup.misses, hf]
  | some t =>
      obtain ⟨o, ho⟩ := h t hf
      simp [Lookup.misses, hf, ho, outcome?_step ho a]

theorem outcome?_of_retrievedBy {x : Nat × Lookup} (hx : x ∈ retrievedBy rules s a) (t : Ticket)
    (ht : x.2.fetch = some t) : ∃ o, s.gate.cache.outcome? t = some o := by
  rcases retrievedBy_cases hx with ⟨r, -, -, hanswered⟩ | ⟨p, o, -, -, ho, hcompleted⟩
  · rw [(Gate.answered?_eq_some hanswered).1] at ht
    cases ht
  · rw [(Gate.completed?_eq_some hcompleted).2.1] at ht
    obtain rfl := Option.some.inj ht
    exact ⟨o, ho⟩

theorem outcome?_of_retrievals {x : Nat × Lookup} (hx : x ∈ retrievals rules s l) (t : Ticket)
    (ht : x.2.fetch = some t) : ∃ o, (after rules s l).gate.cache.outcome? t = some o := by
  induction l using List.reverseRecOn with
  | nil => cases hx
  | append_singleton l a ih =>
      rw [retrievals, trace_concat, List.mem_append] at hx
      rw [after_concat]
      rcases hx with hx | hx
      · obtain ⟨o, ho⟩ := ih hx
        exact ⟨o, outcome?_step ho a⟩
      · obtain ⟨o, ho⟩ := outcome?_of_retrievedBy hx t ht
        exact ⟨o, outcome?_step ho a⟩

theorem lt_of_retrievedBy {x : Nat × Lookup} (hx : x ∈ retrievedBy rules (after rules { epoch := epoch } l) a) :
    x.1 < (requests (l ++ [a])).length := by
  rw [requests_concat, List.length_append]
  rcases retrievedBy_cases hx with ⟨r, rfl, hid, -⟩ | ⟨p, o, -, hp, -, -⟩
  · rw [hid, length_calls]
    exact Nat.lt_succ_self _
  · have hlt := lt_of_pending? hp
    rw [length_calls] at hlt
    exact Nat.lt_add_right _ hlt

theorem lt_of_retrievals {x : Nat × Lookup} (hx : x ∈ retrievals rules { epoch := epoch } l) :
    x.1 < (requests l).length := by
  obtain ⟨l₁, a, l₂, rfl, hby⟩ := mem_trace.mp hx
  have hlt := lt_of_retrievedBy hby
  rw [List.append_cons, requests, List.filterMap_append, List.length_append]
  exact Nat.lt_add_right _ hlt

theorem began_concat (rules : GateRules) (epoch : Int) (h : id < (requests l).length) (a : Action) :
    began rules epoch (l ++ [a]) id = began rules epoch l id := by
  rw [began, before_append h, began]

theorem began_call (rules : GateRules) (epoch : Int) (l : List Action) (r : Request) :
    began rules epoch (l ++ [.call r]) (requests l).length = after rules { epoch := epoch } l := by
  rw [began, before_concat]

theorem atHand?_began {p : Pending} (hp : (after rules { epoch := epoch } l).pending? id = some p)
    (hasked : p.asked? ≠ none) :
    atHand? (began rules epoch l id).now ((began rules epoch l id).gate.cache.slot p.ticket.issuer) = none := by
  induction l using List.reverseRecOn with
  | nil => cases hp
  | append_singleton l a ih =>
      have hc : (after rules { epoch := epoch } l).gate.cache.Tracked := tracked_after .empty l
      rw [after_concat, pending?_eq_some_iff] at hp
      rcases calls_step_cases hp with hsame | ⟨r, rfl, rfl, hk⟩ | ⟨q, o, -, -, -, hk⟩
      · have hlt := (List.getElem?_eq_some_iff.mp hsame).1
        rw [length_calls] at hlt
        rw [began_concat rules epoch hlt]
        exact ih (pending?_eq_some_iff.mpr hsame)
      · rw [length_calls, began_call]
        exact (Gate.start_asked hc hk.symm hasked).1
      · -- Whoever goes on waits for a refresh or for the next issuer of a sweep.
        exact absurd (Gate.proceed_asked hc hk.symm) hasked

theorem isFreshAtCall_concat {x : Nat × Lookup} (hx : x ∈ retrievals rules { epoch := epoch } l) (a : Action) :
    isFreshAtCall rules epoch (l ++ [a]) x = isFreshAtCall rules epoch l x := by
  rw [isFreshAtCall, began_concat rules epoch (lt_of_retrievals hx), isFreshAtCall]

theorem isFreshAtCall_retrievedBy {x : Nat × Lookup}
    (hx : x ∈ retrievedBy rules (after rules { epoch := epoch } l) a) :
    isFreshAtCall rules epoch (l ++ [a]) x = x.2.hits (after rules { epoch := epoch } l).now := by
  rcases retrievedBy_cases hx with ⟨r, rfl, hid, hanswered⟩ | ⟨p, o, rfl, hp, -, hcompleted⟩
  · obtain ⟨hfetch, hrecord⟩ := Gate.answered?_eq_some hanswered
    rw [isFreshAtCall, hid, length_calls, began_call, Lookup.hits, hfetch, hrecord]
    simp
  · obtain ⟨hissuer, hfetch, htoken⟩ := Gate.completed?_eq_some hcompleted
    have hlt := lt_of_pending? hp
    rw [length_calls] at hlt
    have hnone := atHand?_began hp (by simp [htoken])
    rw [isFreshAtCall, began_concat rules epoch hlt, Lookup.hits, hfetch, hissuer, Option.isNone_some,
      Bool.false_and, Bool.and_eq_false_imp]
    exact fun hr => stale_of_atHand? hnone (of_decide_eq_true hr)

theorem countP_trace_concat {β : Type} {f : Run → Action → List β} {P P' Q : β → Bool}
    (hold : ∀ x ∈ trace rules f s l, P' x = P x) (hnew : ∀ x ∈ f (after rules s l) a, P' x = Q x) :
    (trace rules f s (l ++ [a])).countP P' =
      (trace rules f s l).countP P + (f (after rules s l) a).countP Q := by
  have hold : (trace rules f s l).countP P' = (trace rules f s l).countP P :=
    List.countP_congr fun x hx => by rw [hold x hx]
  have hnew : (f (after rules s l) a).countP P' = (f (after rules s l) a).countP Q :=
    List.countP_congr fun x hx => by rw [hnew x hx]
  rw [trace_concat, List.countP_append, hold, hnew]

/-- The counters of the cache, read off what has happened. -/
theorem tally_after (rules : GateRules) (epoch : Int) (l : List Action) :
    (after rules { epoch := epoch } l).gate.cache.tally =
      ⟨(retrievals rules { epoch := epoch } l).countP fun x => isFreshAtCall rules epoch l x,
        (retrievals rules { epoch := epoch } l).countP fun x =>
          x.2.misses (after rules { epoch := epoch } l).gate.cache,
        (retrievals rules { epoch := epoch } l).countP fun x => !isFreshAtCall rules epoch l x &&
          !x.2.misses (after rules { epoch := epoch } l).gate.cache,
        (stores rules { epoch := epoch } l).length, (failures rules { epoch := epoch } l).length,
        (retrievals rules { epoch := epoch } l).countP fun x => x.2.forces⟩ := by
  induction l using List.reverseRecOn with
  | nil => rfl
  | append_singleton l a ih =>
      -- Both what was fresh at a call and what its fetch came to are settled when the lookup returns.
      have hfresh : ∀ x ∈ retrievals rules { epoch := epoch } l,
          isFreshAtCall rules epoch (l ++ [a]) x = isFreshAtCall rules epoch l x :=
        fun x hx => isFreshAtCall_concat hx a
      have hhits : ∀ x ∈ retrievedBy rules (after rules { epoch := epoch } l) a,
          isFreshAtCall rules epoch (l ++ [a]) x = x.2.hits (after rules { epoch := epoch } l).now :=
        fun x hx => isFreshAtCall_retrievedBy hx
      have hmisses : ∀ x ∈ retrievals rules { epoch := epoch } l,
          x.2.misses ((after rules { epoch := epoch } l).step rules a).gate.cache =
            x.2.misses (after rules { epoch := epoch } l).gate.cache :=
        fun x hx => misses_step (outcome?_of_retrievals hx) a
      have hmissesBy : ∀ x ∈ retrievedBy rules (after rules { epoch := epoch } l) a,
          x.2.misses ((after rules { epoch := epoch } l).step rules a).gate.cache =
            x.2.misses (after rules { epoch := epoch } l).gate.cache :=
        fun x hx => misses_step (outcome?_of_retrievedBy hx) a
      rw [after_concat, tally_step, ih]
      congr 1
      · exact (countP_trace_concat hfresh hhits).symm
      · exact (countP_trace_concat hmisses hmissesBy).symm
      · exact (countP_trace_concat (fun x hx => by rw [hfresh x hx, hmisses x hx])
          fun x hx => by rw [hhits x hx, hmissesBy x hx]).symm
      · rw [stores, trace_concat, List.length_append]
      · rw [failures, trace_concat, List.length_append]
      · exact (countP_trace_concat (fun _ _ => rfl) fun _ _ => rfl).symm

theorem serves_after {p : Pending} (hp : (after rules { epoch := epoch } l).pending? id = some p) :
    ∃ r, (requests l)[id]? = some r ∧ p.Serves r := by
  induction l using List.reverseRecOn generalizing p with
  | nil => cases hp
  | append_singleton l a ih =>
      rw [after_concat, pending?_eq_some_iff] at hp
      rcases calls_step_cases hp with hsame | ⟨r, rfl, rfl, hk⟩ | ⟨q, o, -, hq, -, hk⟩
      · obtain ⟨r, hr, hs⟩ := ih (pending?_eq_some_iff.mpr hsame)
        exact ⟨r, getElem?_requests hr [a], hs⟩
      · refine ⟨r, ?_, Gate.start_serves hk.symm⟩
        rw [requests_concat, length_calls]
        exact List.getElem?_concat_length
      · obtain ⟨r, hr, hs⟩ := ih hq
        exact ⟨r, getElem?_requests hr [a], Gate.proceed_serves hs hk.symm⟩

end Run

end BearerGate
