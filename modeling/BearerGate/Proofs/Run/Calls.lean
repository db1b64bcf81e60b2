import BearerGate.Proofs.Run.Change

namespace BearerGate

deriving instance DecidableEq for Result

def Request.token? : Request → Option Text
  | .verify raw | .authenticate raw => some raw
  | _ => none

def Action.request? : Action → Option Request
  | .call r => some r
  | _ => none

def Action.duration : Action → Millis
  | .pass d => d
  | _ => 0

namespace Run

variable {rules : GateRules} {s : Run} {l : List Action} {id : Nat} {a : Action} {x : Result}

def requests (l : List Action) : List Request := l.filterMap Action.request?

theorem requests_concat (l : List Action) (a : Action) :
    requests (l ++ [a]) = requests l ++ a.request?.toList := by
  cases h : a.request? <;> simp [requests, h]

theorem lt_of_pending? {p : Pending} (hp : s.pending? id = some p) : id < s.calls.length := by
  by_contra h
  rw [pending?, List.getElem?_eq_none (Nat.le_of_not_lt h)] at hp
  cases hp

theorem pending?_call (r : Request) :
    (s.step rules (.call r)).pending? s.calls.length =
      (s.gate.start rules s.now s.unix r).2.pending? := by
  simp [step, pending?]

theorem result?_call (r : Request) :
    (s.step rules (.call r)).result? s.calls.length = (s.gate.start rules s.now s.unix r).2.result? := by
  simp [step, result?]

theorem calls_resume {p : Pending} {o : Outcome} (hp : s.pending? id = some p)
    (ho : s.gate.cache.outcome? p.ticket = some o) :
    (s.step rules (.resume id)).calls[id]? = some (s.gate.proceed rules s.now s.unix o p).2 := by
  rw [step_resume hp ho]
  exact List.getElem?_set_self (lt_of_pending? hp)

theorem calls_land (rules : GateRules) (s : Run) (t : Ticket) (result : Except FetchFault Document) :
    (s.step rules (.land t result)).calls = s.calls := by
  by_cases h : s.InFlight t
  · rw [step_land h]
  · rw [step_land_of_not h]

theorem resume_cases (rules : GateRules) (s : Run) (id : Nat) :
    (∃ p o, s.pending? id = some p ∧ s.gate.cache.outcome? p.ticket = some o) ∨
      s.step rules (.resume id) = s := by
  by_cases h : ∀ p, s.pending? id = some p → s.gate.cache.outcome? p.ticket = none
  · exact .inr (step_resume_of_none h)
  · push Not at h
    obtain ⟨p, hp, ho⟩ := h
    obtain ⟨o, ho⟩ := Option.ne_none_iff_exists'.mp ho
    exact .inl ⟨p, o, hp, ho⟩

theorem clock_step (rules : GateRules) (s : Run) (a : Action) :
    (s.step rules a).epoch = s.epoch ∧ (s.step rules a).now = s.now + a.duration := by
  cases a with
  | pass d => exact ⟨rfl, rfl⟩
  | call r => exact ⟨rfl, rfl⟩
  | land t result =>
      by_cases ht : s.InFlight t
      · rw [step_land ht]
        exact ⟨rfl, rfl⟩
      · rw [step_land_of_not ht]
        exact ⟨rfl, rfl⟩
  | resume id =>
      rcases resume_cases rules s id with ⟨p, o, hp, ho⟩ | he
      · rw [step_resume hp ho]
        exact ⟨rfl, rfl⟩
      · rw [he]
        exact ⟨rfl, rfl⟩

theorem now_le_after (rules : GateRules) (s : Run) (l : List Action) : s.now ≤ (after rules s l).now := by
  induction l using List.reverseRecOn with
  | nil => exact Nat.le_refl _
  | append_singleton l a ih =>
      rw [after_concat, (clock_step rules _ a).2]
      exact Nat.le_add_right_of_le ih

/-- A call is as it was before, or it has just begun, or it has just gone on. -/
theorem calls_step_cases {k : Call} (h : (s.step rules a).calls[id]? = some k) :
    s.calls[id]? = some k ∨
      (∃ r, a = .call r ∧ id = s.calls.length ∧ k = (s.gate.start rules s.now s.unix r).2) ∨
        ∃ p o, a = .resume id ∧ s.pending? id = some p ∧ s.gate.cache.outcome? p.ticket = some o ∧
          k = (s.gate.proceed rules s.now s.unix o p).2 := by
  cases a with
  | pass d => exact .inl h
  | call r =>
      rw [step, List.getElem?_append] at h
      split at h
      · exact .inl h
      · rename_i hid
        have hm := List.mem_of_getElem? h
        refine .inr (.inl ⟨r, rfl, ?_, List.mem_singleton.mp hm⟩)
        have hlt := (List.getElem?_eq_some_iff.mp h).1
        simp only [List.length_singleton] at hlt
        omega
  | land t result => exact .inl (calls_land rules s t result ▸ h)
  | resume j =>
      rcases resume_cases rules s j with ⟨p, o, hp, ho⟩ | he
      · by_cases hj : j = id
        · subst hj
          rw [calls_resume hp ho] at h
          exact .inr (.inr ⟨p, o, rfl, hp, ho, (Option.some.inj h).symm⟩)
        · rw [step_resume hp ho, List.getElem?_set_ne hj] at h
          exact .inl h
      · rw [he] at h
        exact .inl h

theorem length_calls_step (rules : GateRules) (s : Run) (a : Action) :
    (s.step rules a).calls.length = s.calls.length + a.request?.toList.length := by
  cases a with
  | pass d => rfl
  | call r => simp [step, Action.request?]
  | land t result =>
      rw [calls_land]
      rfl
  | resume j =>
      rcases resume_cases rules s j with ⟨p, o, hp, ho⟩ | he
      · simp [step_resume hp ho, Action.request?]
      · rw [he]
        rfl

theorem length_calls (rules : GateRules) (epoch : Int) (l : List Action) :
    (after rules { epoch := epoch } l).calls.length = (requests l).length := by
  induction l using List.reverseRecOn with
  | nil => rfl
  | append_singleton l a ih =>
      rw [after_concat, length_calls_step, ih, requests_concat, List.length_append]

theorem calls_step {k : Call} (h : s.calls[id]? = some k)
    (ha : a = .resume id → ∀ p, k.pending? = some p → s.gate.cache.outcome? p.ticket = none) :
    (s.step rules a).calls[id]? = some k := by
  have hid := (List.getElem?_eq_some_iff.mp h).1
  cases a with
  | pass d => exact h
  | call r =>
      rw [step, List.getElem?_append_left hid]
      exact h
  | land t result => rwa [calls_land]
  | resume j =>
      rcases resume_cases rules s j with ⟨p, o, hp, ho⟩ | he
      · have hj : j ≠ id := by
          rintro rfl
          rw [pending?, h] at hp
          have hnone := ha rfl p hp
          rw [ho] at hnone
          cases hnone
        rwa [step_resume hp ho, List.getElem?_set_ne hj]
      · rwa [he]

theorem pending?_eq_some_iff {p : Pending} : s.pending? id = some p ↔ s.calls[id]? = some (.waiting p) := by
  rw [pending?, Option.bind_eq_some_iff]
  constructor
  · rintro ⟨k, hk, hp⟩
    cases k with
    | waiting q =>
        obtain rfl := Option.some.inj hp
        exact hk
    | ended r => cases hp
  · exact fun h => ⟨_, h, rfl⟩

theorem result?_eq_some_iff {r : Result} : s.result? id = some r ↔ s.calls[id]? = some (.ended r) := by
  rw [result?, Option.bind_eq_some_iff]
  constructor
  · rintro ⟨k, hk, hr⟩
    cases k with
    | waiting p => cases hr
    | ended q =>
        obtain rfl := Option.some.inj hr
        exact hk
  · exact fun h => ⟨_, h, rfl⟩

theorem pending?_step {p : Pending} (hp : s.pending? id = some p)
    (ha : a = .resume id → s.gate.cache.outcome? p.ticket = none) :
    (s.step rules a).pending? id = some p := by
  rw [pending?_eq_some_iff] at hp ⊢
  refine calls_step hp fun he q hq => ?_
  obtain rfl := Option.some.inj hq
  exact ha he

theorem result?_step {r : Result} (hr : s.result? id = some r) (rules : GateRules) (a : Action) :
    (s.step rules a).result? id = some r := by
  rw [result?_eq_some_iff] at hr ⊢
  exact calls_step hr fun _ _ hq => nomatch hq

theorem result?_resume {p : Pending} {o : Outcome} {r : Result} (hp : s.pending? id = some p)
    (ho : s.gate.cache.outcome? p.ticket = some o)
    (hr : (s.gate.proceed rules s.now s.unix o p).2 = .ended r) :
    (s.step rules (.resume id)).result? id = some r := by
  rw [result?_eq_some_iff, calls_resume hp ho, hr]

theorem step_resume_waiting {p : Pending} (hp : s.pending? id = some p)
    (ho : s.gate.cache.outcome? p.ticket = none) : s.step rules (.resume id) = s := by
  apply step_resume_of_none
  intro q hq
  obtain rfl := Option.some.inj (hq.symm.trans hp)
  exact ho

theorem step_resume_ended (hx : s.result? id = some x) : s.step rules (.resume id) = s := by
  apply step_resume_of_none
  intro p hp
  rw [pending?_eq_some_iff] at hp
  cases hp.symm.trans (result?_eq_some_iff.mp hx)

theorem result?_ended {l : List Action} {r : Result} (h : (after rules s l).result? id = some r)
    (hnone : s.result? id = none) :
    ∃ l₁ a l₂, l = l₁ ++ a :: l₂ ∧ (after rules s l₁).result? id = none ∧
      ((after rules s l₁).step rules a).result? id = some r := by
  induction l using List.reverseRecOn with
  | nil =>
      rw [after, List.foldl_nil, hnone] at h
      cases h
  | append_singleton l a ih =>
      rw [after_concat] at h
      cases hl : (after rules s l).result? id with
      | none => exact ⟨l, a, [], rfl, hl, h⟩
      | some r' =>
          have hstep := result?_step hl rules a
          obtain rfl : r' = r := Option.some.inj (hstep.symm.trans h)
          obtain ⟨l₁, b, l₂, rfl, hbefore, hb⟩ := ih hl
          exact ⟨l₁, b, l₂ ++ [a], by simp, hbefore, hb⟩

/-- The call that begins with the request is over once the actions have been taken, and not before. -/
def Ends (rules : GateRules) (s : Run) (r : Request) (l : List Action) (x : Result) : Prop :=
  ∃ l₁ a, .call r :: l = l₁ ++ [a] ∧ (after rules s l₁).result? s.calls.length = none ∧
    (after rules s (l₁ ++ [a])).result? s.calls.length = some x

theorem Ends.result? {r : Request} (h : s.Ends rules r l x) :
    (after rules s (.call r :: l)).result? s.calls.length = some x := by
  obtain ⟨l₁, a, hl, -, hx⟩ := h
  rw [hl]
  exact hx

theorem result?_after (hx : s.result? id = some x) (l : List Action) : (after rules s l).result? id = some x := by
  induction l using List.reverseRecOn with
  | nil => exact hx
  | append_singleton l a ih =>
      rw [after_concat]
      exact result?_step ih rules a

theorem result?_length (s : Run) : s.result? s.calls.length = none := by
  rw [result?, List.getElem?_eq_none (Nat.le_refl _)]
  rfl

theorem ends_nil {req : Request} (hx : (s.step rules (.call req)).result? s.calls.length = some x) :
    s.Ends rules req [] x :=
  ⟨[], .call req, rfl, result?_length s, hx⟩

theorem exists_ends {req : Request} (hx : (after rules s (.call req :: l)).result? s.calls.length = some x) :
    ∃ l', s.Ends rules req l' x ∧ l' <+: l := by
  obtain ⟨l₁, a, l₂, hl, hnone, ha⟩ := result?_ended hx (result?_length s)
  rw [← after_concat] at ha
  cases l₁ with
  | nil =>
      obtain ⟨rfl, rfl⟩ := List.cons_eq_cons.mp hl
      exact ⟨[], ⟨[], _, rfl, hnone, ha⟩, List.nil_prefix⟩
  | cons b l₁ =>
      obtain ⟨rfl, rfl⟩ := List.cons_eq_cons.mp hl
      exact ⟨l₁ ++ [a], ⟨_, a, rfl, hnone, ha⟩, l₂, by simp⟩

theorem Ends.at_once {req : Request} {y : Result} (h : s.Ends rules req l x)
    (hy : (s.step rules (.call req)).result? s.calls.length = some y) : l = [] ∧ x = y := by
  obtain ⟨l₁, a, hl, hnone, hx⟩ := h
  cases l₁ with
  | nil =>
      obtain ⟨rfl, rfl⟩ := List.cons_eq_cons.mp hl
      exact ⟨rfl, Option.some.inj (hx.symm.trans hy)⟩
  | cons b l₁ =>
      obtain ⟨rfl, rfl⟩ := List.cons_eq_cons.mp hl
      rw [after_cons, result?_after hy] at hnone
      cases hnone

end Run

end BearerGate
