import BearerGate.Proofs.Run.Confined
import BearerGate.Proofs.Run.OwnStarts

namespace BearerGate

open Cache

theorem Cache.resumeSweep_wins (rules : CacheRules) (now : Millis) (i : Text) (o : Outcome) (rest : List Due)
    (n : Nat) (c : Cache) : c.resumeSweep rules now o rest n = c.sweep rules now rest (n + wins [(i, o)]) := by
  cases o <;> rfl

theorem Cache.wins_append (l l' : List (Text × Outcome)) : wins (l ++ l') = wins l + wins l' := List.countP_append

namespace Run

variable {rules : GateRules} {s : Run} {l : List Action} {a : Action} {id g : Nat} {u : Ticket}
  {due visited rest : List Due} {outcomes : List (Text × Outcome)} {own new : List (Ticket × Millis)}

def considered (s : Run) (horizon : Millis) (order : List Text) : List Due :=
  arrange order (s.gate.cache.due (s.now + horizon))

/-- The issuers that the call, a sweep, is done with in the course of the action, and how they have fared. -/
def triedBy (rules : GateRules) (id : Nat) (s : Run) : Action → List (Text × Outcome)
  | .call (.sweep horizon order) =>
    if s.calls.length = id then s.gate.cache.told rules.policy s.now (s.considered horizon order) else []
  | .resume j =>
    if j = id then
      match s.pending? id with
      | some (.sweep t rest _) =>
        match s.gate.cache.outcome? t with
        | some o => (t.issuer, o) :: s.gate.cache.told rules.policy s.now rest
        | none => []
      | _ => []
    else []
  | _ => []

def tries (rules : GateRules) (id : Nat) : Run → List Action → List (Text × Outcome) := trace rules (triedBy rules id)

theorem triedBy_idle (hid : id < s.calls.length)
    (ha : a = .resume id → ∀ p, s.pending? id = some p → s.gate.cache.outcome? p.ticket = none) :
    triedBy rules id s a = [] := by
  cases a with
  | pass | land => rfl
  | call r =>
      cases r with
      | sweep horizon order => exact if_neg (Nat.ne_of_gt hid)
      | get | refresh | verify | authenticate | evict | forget => rfl
  | resume j =>
      rw [triedBy]
      split
      · rename_i hj
        subst hj
        split
        · rename_i t rest n hp
          have hnone : s.gate.cache.outcome? t = none := ha rfl _ hp
          rw [hnone]
        · rfl
      · rfl

theorem triedBy_resume {n : Nat} {o : Outcome} (hp : s.pending? id = some (.sweep u rest n))
    (ho : s.gate.cache.outcome? u = some o) :
    triedBy rules id s (.resume id) = (u.issuer, o) :: s.gate.cache.told rules.policy s.now rest := by
  simp only [triedBy, if_pos, hp, ho]

def Awaited (g : Nat) (u : Ticket) (s : Run) : Prop :=
  s.InFlight u ∨ ∃ o, s.gate.cache.outcome? u = some o ∧ ∀ r, o = .ok r → g < r.generation

theorem Awaited.step (h : s.Awaited g u) (hc : s.gate.cache.Tracked) (hg : g ≤ s.gate.cache.generation) (a : Action) :
    (s.step rules a).Awaited g u := by
  rcases h with hf | ⟨o, ho, hnewer⟩
  · by_cases ha : ∃ result, a = .land u result
    · obtain ⟨result, rfl⟩ := ha
      refine .inr ⟨outcome rules.policy s.now u.issuer s.gate.cache.generation result, ?_, fun r hr => ?_⟩
      · rw [step_land hf]
        exact hc.outcome?_land hf result
      · rw [(outcome_windowed hr).2.1]
        exact Nat.lt_succ_of_le hg
    · exact .inl (inFlight_step hf fun result he => ha ⟨result, he⟩)
  · exact .inr ⟨o, outcome?_step ho a, hnewer⟩

theorem Awaited.newer {o : Outcome} (h : s.Awaited g u) (hc : s.gate.cache.Tracked)
    (ho : s.gate.cache.outcome? u = some o) {r : Record} (hr : o = .ok r) : g < r.generation := by
  rcases h with hf | ⟨o', ho', hnewer⟩
  · cases (outcome?_of_inFlight hc hf).symm.trans ho
  · obtain rfl := Option.some.inj (ho'.symm.trans ho)
    exact hnewer r hr

/-- All that the sweep has visited it is done with, and so are the fetches that it has started. -/
structure Accounts (visited : List Due) (outcomes : List (Text × Outcome)) (own : List (Ticket × Millis)) (s : Run) :
    Prop where
  tried : List.Forall₂ Tried visited outcomes
  starts : (own.map (·.1.issuer)).Sublist (visited.map Due.issuer)
  told : ∀ f ∈ own, ∃ o, (f.1.issuer, o) ∈ outcomes ∧ s.gate.cache.outcome? f.1 = some o

theorem Accounts.step (h : s.Accounts visited outcomes own) (rules : GateRules) (a : Action) :
    (s.step rules a).Accounts visited outcomes own where
  tried := h.tried
  starts := h.starts
  told f hf := by
    obtain ⟨o, hm, ho⟩ := h.told f hf
    exact ⟨o, hm, outcome?_step ho a⟩

theorem Accounts.concat {d : Due} {o : Outcome} (h : s.Accounts visited outcomes own) (hd : Tried d (u.issuer, o))
    (ho : s.gate.cache.outcome? u = some o) (hnew : new = [] ∨ ∃ k, new = [(u, k)]) :
    s.Accounts (visited ++ [d]) (outcomes ++ [(u.issuer, o)]) (own ++ new) := by
  have hlast : (new.map (·.1.issuer)).Sublist [d.issuer] := by
    rcases hnew with rfl | ⟨k, rfl⟩
    · exact List.nil_sublist _
    · rw [← hd.issuer]
      exact .refl _
  refine ⟨List.rel_append h.tried (.cons hd .nil), ?_, fun f hf => ?_⟩
  · rw [List.map_append, List.map_append]
    exact h.starts.append hlast
  · rcases List.mem_append.mp hf with hf | hf
    · obtain ⟨o', hm, ho'⟩ := h.told f hf
      exact ⟨o', List.mem_append_left _ hm, ho'⟩
    · rcases hnew with rfl | ⟨k, rfl⟩
      · cases hf
      · obtain rfl := List.mem_singleton.mp hf
        exact ⟨o, by simp, ho⟩

/-- How a sweep stands: it is over, or it waits for a fetch of the first issuer that is left, which it may have
started. -/
inductive Underway (id g : Nat) (due : List Due) (outcomes : List (Text × Outcome)) (own : List (Ticket × Millis))
    (s : Run) : Prop
  | isOver (hx : s.result? id = some (.refreshed (wins outcomes))) (h : s.Accounts due outcomes own) :
      Underway id g due outcomes own s
  | waits (visited : List Due) (d : Due) (rest : List Due) (u : Ticket) (before last : List (Ticket × Millis))
      (hdue : due = visited ++ d :: rest) (hu : u.issuer = d.issuer)
      (hp : s.pending? id = some (.sweep u rest (wins outcomes))) (h : s.Accounts visited outcomes before)
      (hlast : last = [] ∨ ∃ k, last = [(u, k)]) (hown : own = before ++ last) (hawaited : s.Awaited g u) :
      Underway id g due outcomes own s

theorem Accounts.sweep (h : s.Accounts visited outcomes own) {c : Cache} {now k : Millis} {r : CacheRules}
    (hk : s.calls[id]? = some (c.sweep r now rest (wins outcomes)).2.call)
    (hnew : new = [] ∨ ∃ p, s.pending? id = some p ∧ new = [(p.ticket, k)])
    (hflight : ∀ p, s.pending? id = some p → s.InFlight p.ticket) :
    s.Underway id g (visited ++ rest) (outcomes ++ c.told r.policy now rest) (own ++ new) := by
  obtain ⟨passed, left, rfl, htried, hstands⟩ := sweep_stands r now rest (wins outcomes) c
  rw [← wins_append] at hstands
  generalize c.told r.policy now (passed ++ left) = told at htried hstands ⊢
  have haccounts : s.Accounts (visited ++ passed) (outcomes ++ told) own := by
    refine ⟨List.rel_append h.tried htried, ?_, fun f hf => ?_⟩
    · rw [List.map_append]
      exact h.starts.trans (List.sublist_append_left _ _)
    · obtain ⟨o, hm, ho⟩ := h.told f hf
      exact ⟨o, List.mem_append_left _ hm, ho⟩
  rw [← List.append_assoc]
  generalize (c.sweep r now (passed ++ left) (wins outcomes)).2 = w at hk hstands
  cases hstands with
  | isOver =>
      have hx : s.result? id = some (.refreshed (wins (outcomes ++ told))) := result?_eq_some_iff.mpr hk
      rcases hnew with rfl | ⟨p, hp, -⟩
      · rw [List.append_nil, List.append_nil]
        exact .isOver hx haccounts
      · cases (pending?_eq_some_iff.mp hp).symm.trans hk
  | waits d left t ht =>
      have hp : s.pending? id = some (.sweep t left (wins (outcomes ++ told))) := pending?_eq_some_iff.mpr hk
      refine .waits (visited ++ passed) d left t own new rfl ht hp haccounts ?_ rfl (.inl (hflight _ hp))
      refine hnew.imp_right ?_
      rintro ⟨p, hp', rfl⟩
      obtain rfl := Option.some.inj (hp.symm.trans hp')
      exact ⟨k, rfl⟩

theorem Underway.step (h : s.Underway id g due outcomes own) (hc : s.gate.cache.Tracked)
    (hg : g ≤ s.gate.cache.generation) (hdue : ∀ d ∈ due, d.generation ≤ g) (a : Action) :
    (s.step rules a).Underway id g due (outcomes ++ triedBy rules id s a) (own ++ ownStartsBy rules id s a) := by
  cases h with
  | isOver hx h =>
      have hid : id < s.calls.length := (List.getElem?_eq_some_iff.mp (result?_eq_some_iff.mp hx)).1
      have hnone : ∀ p, s.pending? id ≠ some p := fun p hp => by
        cases (pending?_eq_some_iff.mp hp).symm.trans (result?_eq_some_iff.mp hx)
      rw [triedBy_idle hid fun _ p hp => absurd hp (hnone p),
        ownStartsBy_idle hid fun he => he ▸ step_resume_ended hx, List.append_nil, List.append_nil]
      exact .isOver (result?_step hx rules a) (h.step rules a)
  | waits visited d rest u before last hsplit hu hp h hlast hown hawaited =>
      -- Only going on takes the sweep further, and only once the fetch that it waits for is over.
      by_cases hgoes : a = .resume id ∧ ∃ o, s.gate.cache.outcome? u = some o
      · obtain ⟨rfl, o, ho⟩ := hgoes
        have htried : Tried d (u.issuer, o) := ⟨hu, fun r hr =>
          Nat.lt_of_le_of_lt (hdue d (by simp [hsplit])) (hawaited.newer hc ho hr)⟩
        have haccounts := (h.step rules (.resume id)).concat htried (outcome?_step ho _) hlast
        have hk : (s.step rules (.resume id)).calls[id]? =
            some (s.gate.cache.sweep rules.cache s.now rest (wins (outcomes ++ [(u.issuer, o)]))).2.call := by
          rw [calls_resume hp ho, Gate.proceed, Gate.ofSweep_call, resumeSweep_wins _ _ u.issuer, wins_append]
        have hsweep := haccounts.sweep (g := g) hk (ownStartsBy_cases hc rules id (.resume id))
          fun _ => inFlight_resume hc hp ho
        rw [List.append_assoc, List.append_assoc, ← hown] at hsweep
        rw [triedBy_resume hp ho, hsplit]
        exact hsweep
      · have hwaits : a = .resume id → s.gate.cache.outcome? u = none := fun he =>
          Option.eq_none_iff_forall_ne_some.mpr fun o ho => hgoes ⟨he, o, ho⟩
        have hidle : a = .resume id → ∀ p, s.pending? id = some p → s.gate.cache.outcome? p.ticket = none := by
          intro he p hp'
          obtain rfl := Option.some.inj (hp.symm.trans hp')
          exact hwaits he
        have hid := lt_of_pending? hp
        have hsame : a = .resume id → s.step rules a = s := fun he => he ▸ step_resume_of_none (hidle he)
        rw [triedBy_idle hid hidle, ownStartsBy_idle hid hsame, List.append_nil, List.append_nil]
        exact .waits visited d rest u before last hsplit hu (pending?_step hp hwaits) (h.step rules a) hlast hown
          (hawaited.step hc hg a)

theorem Reachable.nodup_slots (hs : s.Reachable rules) : (s.gate.cache.slots.map Prod.fst).Nodup := by
  obtain ⟨epoch, l, rfl⟩ := hs
  exact nodup_slots_after rules epoch l

section Considered

variable {horizon : Millis} {order : List Text} {d : Due}

theorem mem_considered (hs : s.Reachable rules) :
    d ∈ s.considered horizon order ↔ ∃ r, s.gate.cache.record? d.issuer = some r ∧
      r.generation = d.generation ∧ r.isFresh (s.now + horizon) = false := by
  rw [considered, (arrange_perm order _).mem_iff, mem_due hs.nodup_slots]

theorem nodup_considered (hs : s.Reachable rules) (horizon : Millis) (order : List Text) :
    ((s.considered horizon order).map Due.issuer).Nodup :=
  ((arrange_perm order _).map _).nodup_iff.mpr (hs.nodup_slots.sublist (sublist_due _ _))

theorem generation_le_of_considered (hs : s.Reachable rules) (hd : d ∈ s.considered horizon order) :
    d.generation ≤ s.gate.cache.generation := by
  obtain ⟨r, hr, hg, -⟩ := (mem_considered hs).mp hd
  exact hg ▸ (hs.windowed hr).2

end Considered

variable {horizon : Millis} {order : List Text} {x : Result}

theorem underway_after (hs : s.Reachable rules) (horizon : Millis) (order : List Text) (l : List Action) :
    (after rules s (.call (.sweep horizon order) :: l)).Underway s.calls.length s.gate.cache.generation
      (s.considered horizon order) (tries rules s.calls.length s (.call (.sweep horizon order) :: l))
      (ownStarts rules s.calls.length s (.call (.sweep horizon order) :: l)) := by
  induction l using List.reverseRecOn with
  | nil =>
      have hempty : (s.step rules (.call (.sweep horizon order))).Accounts [] [] [] :=
        ⟨.nil, .slnil, fun _ hf => nomatch hf⟩
      have hk : (s.step rules (.call (.sweep horizon order))).calls[s.calls.length]? =
          some (s.gate.cache.sweep rules.cache s.now (s.considered horizon order) (wins [])).2.call := by
        rw [step, List.getElem?_concat_length]
        exact congrArg some (Gate.ofSweep_call _ _)
      have hsweep := hempty.sweep (g := s.gate.cache.generation) hk
        (ownStartsBy_cases hs.tracked rules s.calls.length (.call (.sweep horizon order)))
        fun _ => inFlight_call hs.tracked
      have htried : triedBy rules s.calls.length s (.call (.sweep horizon order)) =
          s.gate.cache.told rules.policy s.now (s.considered horizon order) := if_pos rfl
      rw [tries, ownStarts, trace, trace, trace, trace, List.append_nil, List.append_nil, htried]
      exact hsweep
  | append_singleton l a ih =>
      have hc : (after rules s (.call (.sweep horizon order) :: l)).gate.cache.Tracked :=
        tracked_after hs.tracked _
      have hg := generation_le_after rules s (.call (.sweep horizon order) :: l)
      rw [← List.cons_append, after_concat, tries, ownStarts, trace_concat, trace_concat]
      exact ih.step hc hg (fun d hd => generation_le_of_considered hs hd) a

/-- How the sweep that has ended after the actions has fared with an issuer. Where its attempt has failed, the
record that it saw is still there, unless the issuer was evicted or a fetch of somebody else brought another
record. -/
inductive Fares (rules : GateRules) (s : Run) (horizon : Millis) (order : List Text) (l : List Action) (d : Due) :
    Text × Outcome → Prop
  | refreshed (r : Record) (h : d.generation < r.generation) : Fares rules s horizon order l d (d.issuer, .ok r)
  | failed (f : FetchFault)
      (h : (∀ a ∈ l, ¬a.Evicts rules d.issuer) →
        (∀ t r, t.issuer = d.issuer → Lands rules s (.call (.sweep horizon order) :: l) t (.ok r) →
          t ∈ (ownStarts rules s.calls.length s (.call (.sweep horizon order) :: l)).map Prod.fst) →
        (after rules s (.call (.sweep horizon order) :: l)).gate.cache.record? d.issuer =
          s.gate.cache.record? d.issuer) :
      Fares rules s horizon order l d (d.issuer, .error f)

/-- A sweep visits the issuers that are due, those whose records would not be fresh at the end of the horizon, in
any order. It starts no fetch of another issuer and no two of the same, and each attempt brings it further. When it
is over, it has tried each of them and counted those that it has got a newer record of. -/
structure Sweeps (rules : GateRules) (s : Run) (horizon : Millis) (order : List Text) : Prop where
  considers : ∀ i g, ⟨i, g⟩ ∈ s.considered horizon order ↔ ∃ r, s.gate.cache.record? i = some r ∧
    r.generation = g ∧ r.isFresh (s.now + horizon) = false
  once : ((s.considered horizon order).map Due.issuer).Nodup
  ordered : ∀ due, due.Perm (s.considered horizon order) → s.considered horizon (due.map Due.issuer) = due
  starts : ∀ l, ((ownStarts rules s.calls.length s (.call (.sweep horizon order) :: l)).map (·.1.issuer)).Sublist
    ((s.considered horizon order).map Due.issuer)
  visits : ∀ l, (tries rules s.calls.length s (.call (.sweep horizon order) :: l)).map Prod.fst <+:
    (s.considered horizon order).map Due.issuer
  returns : ∀ l,
    (∃ x, (after rules s (.call (.sweep horizon order) :: l)).result? s.calls.length = some x) ∨
      ∃ t rest n, (after rules s (.call (.sweep horizon order) :: l)).pending? s.calls.length =
          some (.sweep t rest n) ∧
        ((after rules s (.call (.sweep horizon order) :: l)).InFlight t ∨
          triedBy rules s.calls.length (after rules s (.call (.sweep horizon order) :: l))
            (.resume s.calls.length) ≠ [])
  ends : ∀ l x, s.Ends rules (.sweep horizon order) l x →
    List.Forall₂ (Fares rules s horizon order l) (s.considered horizon order)
        (tries rules s.calls.length s (.call (.sweep horizon order) :: l)) ∧
      x = .refreshed (wins (tries rules s.calls.length s (.call (.sweep horizon order) :: l)))

theorem map_fst_of_tried (h : List.Forall₂ Tried visited outcomes) :
    outcomes.map Prod.fst = visited.map Due.issuer := by
  induction h with
  | nil => rfl
  | cons hd _ ih => rw [List.map_cons, List.map_cons, hd.issuer, ih]

theorem Underway.starts (h : s.Underway id g due outcomes own) :
    (own.map (·.1.issuer)).Sublist (due.map Due.issuer) := by
  cases h with
  | isOver hx h => exact h.starts
  | waits visited d rest u before last hdue hu hp h hlast hown hawaited =>
      rw [hdue, hown, List.map_append, List.map_append, List.map_cons]
      refine h.starts.append ?_
      rcases hlast with rfl | ⟨k, rfl⟩
      · exact List.nil_sublist _
      · rw [List.map_singleton, hu]
        exact (List.nil_sublist _).cons_cons _

theorem Underway.visits (h : s.Underway id g due outcomes own) : outcomes.map Prod.fst <+: due.map Due.issuer := by
  cases h with
  | isOver hx h => exact ⟨[], by rw [List.append_nil, map_fst_of_tried h.tried]⟩
  | waits visited d rest u before last hdue hu hp h hlast hown hawaited =>
      exact ⟨(d :: rest).map Due.issuer, by rw [map_fst_of_tried h.tried, hdue, List.map_append]⟩

theorem Underway.returns (h : s.Underway id g due outcomes own) (rules : GateRules) :
    (∃ x, s.result? id = some x) ∨
      ∃ t rest n, s.pending? id = some (.sweep t rest n) ∧
        (s.InFlight t ∨ triedBy rules id s (.resume id) ≠ []) := by
  cases h with
  | isOver hx h => exact .inl ⟨_, hx⟩
  | waits visited d rest u before last hdue hu hp h hlast hown hawaited =>
      refine .inr ⟨u, rest, _, hp, hawaited.imp_right ?_⟩
      rintro ⟨o, ho, -⟩
      rw [triedBy_resume hp ho]
      exact List.cons_ne_nil _ _

theorem Underway.ended (h : s.Underway id g due outcomes own) (hx : s.result? id = some x) :
    x = .refreshed (wins outcomes) ∧ s.Accounts due outcomes own := by
  cases h with
  | isOver hx' h => exact ⟨Option.some.inj (hx.symm.trans hx'), h⟩
  | waits visited d rest u before last hdue hu hp h hlast hown hawaited =>
      cases (pending?_eq_some_iff.mp hp).symm.trans (result?_eq_some_iff.mp hx)

theorem record?_of_failed (hc : s.gate.cache.Tracked) {d : Due} {f : FetchFault}
    (h : (after rules s (.call (.sweep horizon order) :: l)).Accounts due outcomes own)
    (hnodup : (outcomes.map Prod.fst).Nodup) (hm : (d.issuer, .error f) ∈ outcomes)
    (hevicts : ∀ a ∈ l, ¬a.Evicts rules d.issuer)
    (hothers : ∀ t r, t.issuer = d.issuer → Lands rules s (.call (.sweep horizon order) :: l) t (.ok r) →
      t ∈ own.map Prod.fst) :
    (after rules s (.call (.sweep horizon order) :: l)).gate.cache.record? d.issuer =
      s.gate.cache.record? d.issuer := by
  have hall : ∀ a ∈ Action.call (.sweep horizon order) :: l, ¬a.Evicts rules d.issuer := by
    intro a ha
    rcases List.mem_cons.mp ha with rfl | ha
    · exact not_false
    · exact hevicts a ha
  rcases record?_after hall with hsame | ⟨r, -, t, ht, hland⟩
  · exact hsame
  · -- The fetch that brought the new record was not started by the sweep, whose attempt would have succeeded.
    exfalso
    obtain ⟨y, hy, rfl⟩ := List.mem_map.mp (hothers t r ht hland)
    obtain ⟨o, hm', ho⟩ := h.told y hy
    obtain rfl := Option.some.inj (ho.symm.trans (hland.outcome? hc))
    rw [ht] at hm'
    cases List.inj_on_of_nodup_map hnodup hm hm' rfl

theorem sweeps (hs : s.Reachable rules) (horizon : Millis) (order : List Text) : Sweeps rules s horizon order where
  considers i g := mem_considered (d := ⟨i, g⟩) hs
  once := nodup_considered hs horizon order
  ordered due hdue := by
    have hperm := hdue.trans (arrange_perm order _)
    exact arrange_of_perm hperm (hs.nodup_slots.sublist (sublist_due _ _))
  starts l := (underway_after hs horizon order l).starts
  visits l := (underway_after hs horizon order l).visits
  returns l := (underway_after hs horizon order l).returns rules
  ends l x h := by
    obtain ⟨hx, haccounts⟩ := (underway_after hs horizon order l).ended h.result?
    refine ⟨?_, hx⟩
    have hnodup := nodup_considered hs horizon order
    rw [← map_fst_of_tried haccounts.tried] at hnodup
    rw [List.forall₂_iff_zip]
    refine ⟨haccounts.tried.length_eq, fun {d y} hzip => ?_⟩
    have htried := List.forall₂_zip haccounts.tried hzip
    obtain ⟨-, hy⟩ := List.of_mem_zip hzip
    obtain ⟨i, o⟩ := y
    obtain rfl : i = d.issuer := htried.issuer
    cases o with
    | ok r => exact .refreshed r (htried.newer r rfl)
    | error f => exact .failed f (record?_of_failed hs.tracked haccounts hnodup hy)

def realmDocument : Document :=
  { abcDocument with metadata := { abcDocument.metadata with issuer := "https://idp.example/realms/a" } }

def pairKnown : List Action :=
  [.call (.get "https://idp.example/abc"), .land ⟨"https://idp.example/abc", 0⟩ (.ok abcDocument),
    .call (.get "https://idp.example/realms/a"), .land ⟨"https://idp.example/realms/a", 0⟩ (.ok realmDocument),
    .pass 3590000]

def pairSwept : List Action :=
  [.land ⟨"https://idp.example/realms/a", 1⟩ (.error (.status "https://idp.example/realms/a" 503)), .resume 2,
    .land ⟨"https://idp.example/abc", 1⟩ (.ok abcDocument), .resume 2]

theorem sweeps_pairKnown :
    (after wideRules { epoch := 0 } pairKnown).considered 60000 ["https://idp.example/realms/a"] =
        [⟨"https://idp.example/realms/a", 2⟩, ⟨"https://idp.example/abc", 1⟩] ∧
      Sweeps wideRules (after wideRules { epoch := 0 } pairKnown) 60000 ["https://idp.example/realms/a"] ∧
        (after wideRules (after wideRules { epoch := 0 } pairKnown)
          (.call (.sweep 60000 ["https://idp.example/realms/a"]) :: pairSwept)).result? 2 =
            some (.refreshed 1) := by
  refine ⟨by decide +kernel, sweeps ⟨0, pairKnown, rfl⟩ _ _, ?_⟩
  decide +kernel

end Run

end BearerGate
