import BearerGate.Proofs.Cache.Sweep
import BearerGate.Proofs.Run.Conserved
import BearerGate.Proofs.Run.Throttle

namespace BearerGate

open Cache

def Reply.ticket? {α : Type} : Reply α → Option Ticket
  | .wait t => some t
  | .done _ => none

def Cache.Sweep.ticket? : Cache.Sweep → Option Ticket
  | .wait t _ _ => some t
  | .done _ => none

def Gate.Progress.ticket? : Gate.Progress → Option Ticket
  | .wait a => some a.ticket
  | .done _ => none

def Call.ticket? (k : Call) : Option Ticket := k.pending?.map Pending.ticket

theorem Pending.waits_pos (p : Pending) : 0 < p.waits := by
  cases p with
  | get | refresh => exact Nat.one_pos
  | sweep t rest n => exact Nat.succ_pos _
  | attempt a counted =>
      rw [waits]
      split <;> decide

namespace Cache

variable {p : CachePolicy} {rules : CacheRules} {now : Millis} {c c' c'' : Cache} {w : Option Ticket}

def StartsFor (now : Millis) (c c' : Cache) (w : Option Ticket) : Prop :=
  c'.flights = c.flights ∨ ∃ t, w = some t ∧ c'.flights = c.flights ++ [(t, now)]

theorem StartsFor.flights (h : StartsFor now c c' none) : c'.flights = c.flights := by
  rcases h with h | ⟨t, ht, -⟩
  · exact h
  · cases ht

theorem StartsFor.of_flights (h : c'.flights = c.flights) (w : Option Ticket) : StartsFor now c c' w := .inl h

theorem StartsFor.trans (h : c'.flights = c.flights) (h' : StartsFor now c' c'' w) : StartsFor now c c'' w := by
  rw [StartsFor, ← h]
  exact h'

theorem request_startsFor (p : CachePolicy) (now : Millis) (i : Text) (w : Wanted) (c : Cache) :
    StartsFor now c (c.request p now i w).1 (c.request p now i w).2.ticket? := by
  rcases request_cases p now i w c with ⟨n, -, hr⟩ | ⟨-, ⟨o, -, hr⟩ | ⟨-, hr⟩⟩
  · rw [hr]
    exact .of_flights rfl _
  · rw [hr]
    exact .of_flights rfl _
  · rw [hr]
    exact .inr ⟨_, rfl, rfl⟩

theorem flights_finishGet (now : Millis) (i : Text) (o : Outcome) (c : Cache) :
    (c.finishGet now i o).1.flights = c.flights := by
  simp only [finishGet]
  split
  · rfl
  · split <;> rfl

theorem get_startsFor (rules : CacheRules) (now : Millis) (url : Text) (c : Cache) :
    StartsFor now c (c.get rules now url).1 (c.get rules now url).2.ticket? := by
  cases hj : rules.trust.resolve? url with
  | none =>
      rw [get_untrusted rules hj]
      exact .of_flights rfl _
  | some j =>
      have hr := request_startsFor rules.policy now j.url .fresh (c.touch j.url)
      rcases get_cases rules now c hj with ⟨r, count, -, hget⟩ | ⟨-, ⟨c', t, he, hget⟩ | ⟨c', o, he, hget⟩⟩
      · rw [hget]
        exact .of_flights rfl _
      · rw [he] at hr
        rw [hget]
        exact hr
      · rw [he] at hr
        rw [hget]
        exact .of_flights ((flights_finishGet now j.url o c').trans hr.flights) _

theorem refresh_startsFor (rules : CacheRules) (now : Millis) (seen : Record) (c : Cache) :
    StartsFor now c (c.refresh rules now seen).1 (c.refresh rules now seen).2.ticket? := by
  have hr := request_startsFor rules.policy now seen.issuer (.keyMiss seen.generation) (c.touch seen.issuer)
  rw [refresh_eq]
  generalize (c.touch seen.issuer).request rules.policy now seen.issuer (.keyMiss seen.generation) = x at hr ⊢
  obtain ⟨c', reply⟩ := x
  cases reply <;> exact hr

theorem sweep_startsFor (rules : CacheRules) (now : Millis) (due : List Due) (n : Nat) (c : Cache) :
    StartsFor now c (c.sweep rules now due n).1 (c.sweep rules now due n).2.ticket? := by
  induction due generalizing n c with
  | nil => exact .of_flights rfl _
  | cons d rest ih =>
      have hr := request_startsFor rules.policy now d.issuer (.newer d.generation) c
      rw [sweep]
      split
      · rename_i he
        rwa [he] at hr
      · rename_i he
        rw [he] at hr
        exact .trans hr.flights (ih _ _)
      · rename_i he
        rw [he] at hr
        exact .trans hr.flights (ih _ _)

end Cache

namespace Gate

variable {rules : GateRules} {now : Millis} {unix : Int}

theorem afterLookup_startsFor (rules : GateRules) (now : Millis) (unix : Int) (t : Unverified) (i : TrustedIssuer)
    (a : Except AuthFault Record) (c : Cache) :
    StartsFor now c (afterLookup rules now unix t i a c).1 (afterLookup rules now unix t i a c).2.ticket? := by
  simp only [afterLookup]
  split
  · exact .of_flights rfl _
  · rename_i r
    split
    · exact .of_flights rfl _
    · exact .of_flights rfl _
    · have hr := refresh_startsFor rules.cache now r { c with tally := c.tally.keyRefresh }
      split
      · rename_i he
        rwa [he] at hr
      · rename_i he
        rw [he] at hr
        exact .of_flights hr.flights _

theorem verify_startsFor (rules : GateRules) (now : Millis) (unix : Int) (raw : Text) (g : Gate) :
    StartsFor now g.cache (g.verify rules now unix raw).1.cache (g.verify rules now unix raw).2.ticket? := by
  rcases verify_cases rules now unix raw g with
    ⟨-, hcache, -, -⟩ | ⟨t, e, -, ⟨c, u, he, hcache, hp⟩ | ⟨c, a, he, hcache, hp⟩⟩
  · rw [hcache]
    exact .of_flights rfl _
  · have hr := get_startsFor rules.cache now e.url g.cache
    rw [he] at hr
    rw [hcache, hp]
    exact hr
  · have hr := get_startsFor rules.cache now e.url g.cache
    rw [he] at hr
    rw [hcache, hp]
    exact .trans hr.flights (afterLookup_startsFor _ _ _ _ _ _ _)

theorem resume_startsFor (rules : GateRules) (now : Millis) (unix : Int) (a : Attempt) (o : Outcome) (g : Gate) :
    StartsFor now g.cache (g.resume rules now unix a o).1.cache (g.resume rules now unix a o).2.ticket? := by
  rw [resume]
  split
  · exact .trans (flights_finishGet now a.ticket.issuer o g.cache) (afterLookup_startsFor _ _ _ _ _ _ _)
  · exact .of_flights rfl _

theorem ofLookup_ticket? (g : Gate) (x : Cache × Reply (Except AuthFault Record)) {f : Ticket → Pending}
    (hf : ∀ t, (f t).ticket = t) : (g.ofLookup x f).2.ticket? = x.2.ticket? := by
  obtain ⟨c, reply⟩ := x
  cases reply with
  | done a => rfl
  | wait t => exact congrArg some (hf t)

theorem ofSweep_ticket? (g : Gate) (x : Cache × Sweep) : (g.ofSweep x).2.ticket? = x.2.ticket? := by
  obtain ⟨c, w⟩ := x
  cases w <;> rfl

theorem ofProgress_ticket? (counted : Bool) (x : Gate × Progress) :
    (ofProgress counted x).2.ticket? = x.2.ticket? := by
  obtain ⟨g, p⟩ := x
  cases p <;> rfl

theorem start_startsFor (rules : GateRules) (now : Millis) (unix : Int) (r : Request) (g : Gate) :
    StartsFor now g.cache (g.start rules now unix r).1.cache (g.start rules now unix r).2.ticket? := by
  cases r with
  | get url =>
      rw [start, ofLookup_cache, ofLookup_ticket? _ _ fun _ => rfl]
      exact get_startsFor _ _ _ _
  | refresh seen =>
      rw [start, ofLookup_cache, ofLookup_ticket? _ _ fun _ => rfl]
      exact refresh_startsFor _ _ _ _
  | sweep horizon order =>
      rw [start, ofSweep_cache, ofSweep_ticket?]
      exact sweep_startsFor _ _ _ _ _
  | verify token | authenticate token =>
      rw [start, ofProgress_cache, ofProgress_ticket?]
      exact verify_startsFor _ _ _ _ _
  | evict url | forget url => exact .of_flights (flights_evict _ _ _) _

theorem proceed_startsFor (rules : GateRules) (now : Millis) (unix : Int) (o : Outcome) (p : Pending) (g : Gate) :
    StartsFor now g.cache (g.proceed rules now unix o p).1.cache (g.proceed rules now unix o p).2.ticket? := by
  cases p with
  | get t => exact .of_flights (flights_finishGet _ _ _ _) _
  | refresh t => exact .of_flights rfl _
  | sweep t rest n =>
      rw [proceed, ofSweep_cache, ofSweep_ticket?]
      cases o <;> exact sweep_startsFor _ _ _ _ _
  | attempt a counted =>
      rw [proceed, ofProgress_cache, ofProgress_ticket?]
      exact resume_startsFor _ _ _ _ _ _

theorem start_waits (rules : GateRules) (now : Millis) (unix : Int) {r : Request} {raw : Text}
    (hr : r.token? = some raw) {g : Gate} {q : Pending} (h : (g.start rules now unix r).2 = .waiting q) :
    q.waits ≤ 2 := by
  obtain ⟨counted, he⟩ := start_of_token? rules now unix g hr
  rw [he] at h
  obtain ⟨⟨t, i, phase, ticket⟩, -, rfl⟩ := ofProgress_waiting h
  cases phase with
  | lookup => exact Nat.le_refl 2
  | refresh => exact Nat.le_succ 1

theorem proceed_waits {g : Gate} (hc : g.cache.Tracked) {o : Outcome} {p q : Pending}
    (h : (g.proceed rules now unix o p).2 = .waiting q) : q.waits < p.waits := by
  cases p with
  | get t | refresh t => cases h
  | sweep t rest n =>
      obtain ⟨u, rest', k, hw, rfl⟩ := ofSweep_waiting h
      obtain ⟨m, hm⟩ := resumeSweep_eq rules.cache now o rest n g.cache
      rw [hm] at hw
      obtain ⟨visited, left, rfl, -, hstands⟩ := sweep_stands rules.cache now rest m g.cache
      rw [hw] at hstands
      cases hstands
      simp only [Pending.waits, List.length_append, List.length_cons]
      omega
  | attempt a counted =>
      obtain ⟨b, hb, rfl⟩ := ofProgress_waiting h
      obtain ⟨ha, hb, -⟩ := resume_wait hc hb
      simp only [Pending.waits, ha, hb]
      decide

end Gate

namespace Run

variable {rules : GateRules} {s : Run} {l : List Action} {a : Action} {id : Nat}

def ownStartsBy (rules : GateRules) (id : Nat) (s : Run) (a : Action) : List (Ticket × Millis) :=
  if a.caller? s = some id then startedBy rules s a else []

/-- The fetches that the call starts in the course of the actions. -/
def ownStarts (rules : GateRules) (id : Nat) : Run → List Action → List (Ticket × Millis) :=
  trace rules (ownStartsBy rules id)

theorem startedBy_of_startsFor (hc : s.gate.cache.Tracked)
    (h : Changes (a.Evicts rules) rules.policy s.now s.gate.cache (s.step rules a).gate.cache)
    {k : Call} (hk : StartsFor s.now s.gate.cache (s.step rules a).gate.cache k.ticket?) :
    startedBy rules s a = [] ∨ ∃ p, k.pending? = some p ∧ startedBy rules s a = [(p.ticket, s.now)] := by
  have hflights := startedBy_of_changes hc h
  rcases hk with hk | ⟨t, ht, hk⟩
  · rw [hk] at hflights
    exact .inl (List.self_eq_append_right.mp hflights)
  · rw [hk] at hflights
    obtain ⟨p, hp, rfl⟩ := Option.map_eq_some_iff.mp ht
    exact .inr ⟨p, hp, (List.append_cancel_left hflights).symm⟩

theorem ownStartsBy_cases (hc : s.gate.cache.Tracked) (rules : GateRules) (id : Nat) (a : Action) :
    ownStartsBy rules id s a = [] ∨
      ∃ p, (s.step rules a).pending? id = some p ∧ ownStartsBy rules id s a = [(p.ticket, s.now)] := by
  rw [ownStartsBy]
  split
  · rename_i hid
    cases a with
    | pass | land => cases hid
    | call r =>
        obtain rfl := Option.some.inj hid
        rw [pending?_call]
        exact startedBy_of_startsFor (a := .call r) hc (Gate.start_changes r s.gate)
          (Gate.start_startsFor rules s.now s.unix r s.gate)
    | resume id =>
        obtain rfl := Option.some.inj hid
        rcases resume_cases rules s id with ⟨p, o, hp, ho⟩ | he
        · rw [pending?, calls_resume hp ho, Option.bind_some]
          refine startedBy_of_startsFor hc ?_ ?_
          · rw [step_resume hp ho]
            exact Gate.proceed_asks o p s.gate
          · rw [step_resume hp ho]
            exact Gate.proceed_startsFor rules s.now s.unix o p s.gate
        · exact .inl (startedBy_of_flights (by rw [he]))
  · exact .inl rfl

def waitsLeft (s : Run) (id : Nat) : Nat := (s.pending? id).elim 0 Pending.waits

theorem ownStartsBy_idle (hid : id < s.calls.length) (ha : a = .resume id → s.step rules a = s) :
    ownStartsBy rules id s a = [] := by
  rw [ownStartsBy]
  split
  · rename_i hcaller
    cases a with
    | pass | land => cases hcaller
    | call r => exact absurd hid (Option.some.inj hcaller ▸ Nat.lt_irrefl _)
    | resume j =>
        obtain rfl := Option.some.inj hcaller
        exact startedBy_of_flights (by rw [ha rfl])
  · rfl

/-- A fetch that a call starts counts against those that the call may still come to wait for. -/
theorem ownStartsBy_le (hc : s.gate.cache.Tracked) (rules : GateRules) (hid : id < s.calls.length) (a : Action) :
    (ownStartsBy rules id s a).length + (waitsLeft (s.step rules a) id - 1) ≤ waitsLeft s id - 1 := by
  have hsame (hnone : ownStartsBy rules id s a = []) (hcall : (s.step rules a).calls[id]? = s.calls[id]?) :
      (ownStartsBy rules id s a).length + (waitsLeft (s.step rules a) id - 1) ≤ waitsLeft s id - 1 := by
    rw [hnone, waitsLeft, waitsLeft, pending?, pending?, hcall, List.length_nil, Nat.zero_add]
  by_cases ha : a = .resume id
  · subst ha
    rcases resume_cases rules s id with ⟨p, o, hp, ho⟩ | he
    · have hstarts := ownStartsBy_cases hc rules id (.resume id)
      have hnext : (s.step rules (.resume id)).pending? id =
          (s.gate.proceed rules s.now s.unix o p).2.pending? := by
        rw [pending?, calls_resume hp ho, Option.bind_some]
      rw [waitsLeft, waitsLeft, hnext, hp, Option.elim_some]
      rw [hnext] at hstarts
      rcases hstarts with h | ⟨q, hq, h⟩
      · cases hk : (s.gate.proceed rules s.now s.unix o p).2 with
        | ended x =>
            rw [h]
            exact Nat.zero_le _
        | waiting q =>
            have hlt := Gate.proceed_waits hc hk
            rw [h]
            simp only [Call.pending?, Option.elim_some, List.length_nil]
            omega
      · cases hk : (s.gate.proceed rules s.now s.unix o p).2 with
        | ended x =>
            rw [hk] at hq
            cases hq
        | waiting q' =>
            have hlt := Gate.proceed_waits hc hk
            have hpos := q'.waits_pos
            rw [h]
            simp only [Call.pending?, Option.elim_some, List.length_singleton]
            omega
    · exact hsame (ownStartsBy_idle hid fun _ => he) (by rw [he])
  · have hk : s.calls[id]? = some s.calls[id] := List.getElem?_eq_getElem hid
    refine hsame (ownStartsBy_idle hid fun he => absurd he ha) ?_
    rw [calls_step hk fun he => absurd he ha, hk]

theorem length_calls_le_after (rules : GateRules) (s : Run) (l : List Action) :
    s.calls.length ≤ (after rules s l).calls.length := by
  induction l using List.reverseRecOn with
  | nil => exact Nat.le_refl _
  | append_singleton l a ih =>
      rw [after_concat, length_calls_step]
      exact Nat.le_add_right_of_le ih

theorem length_ownStarts_le (hc : s.gate.cache.Tracked) (rules : GateRules) (hid : id < s.calls.length)
    (l : List Action) :
    (ownStarts rules id s l).length + (waitsLeft (after rules s l) id - 1) ≤ waitsLeft s id - 1 := by
  induction l using List.reverseRecOn with
  | nil => exact Nat.le_of_eq (Nat.zero_add _)
  | append_singleton l a ih =>
      have hlength := Nat.lt_of_lt_of_le hid (length_calls_le_after rules s l)
      have hstep := ownStartsBy_le (tracked_after hc l) rules hlength a
      rw [ownStarts, trace_concat, List.length_append, after_concat, ← ownStarts]
      omega

/-- A call starts no more fetches than it may come to wait for when it begins. -/
theorem length_ownStarts_call (hc : s.gate.cache.Tracked) (rules : GateRules) (r : Request) (l : List Action) :
    (ownStarts rules s.calls.length s (.call r :: l)).length ≤
      waitsLeft (s.step rules (.call r)) s.calls.length := by
  have hid : s.calls.length < (s.step rules (.call r)).calls.length := by
    rw [length_calls_step]
    exact Nat.lt_succ_self _
  have hrest := length_ownStarts_le (tracked_after hc [.call r]) rules hid l
  change (ownStarts rules s.calls.length (s.step rules (.call r)) l).length + _ ≤
    waitsLeft (s.step rules (.call r)) s.calls.length - 1 at hrest
  rw [ownStarts, trace, List.length_append, ← ownStarts]
  rcases ownStartsBy_cases hc rules s.calls.length (.call r) with h | ⟨p, hp, h⟩
  · rw [h, List.length_nil]
    omega
  · have hpos := p.waits_pos
    have hleft : waitsLeft (s.step rules (.call r)) s.calls.length = p.waits := by rw [waitsLeft, hp, Option.elim_some]
    rw [h, List.length_singleton]
    omega

end Run

end BearerGate
