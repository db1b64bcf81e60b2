import BearerGate.Proofs.Gate.Decided
import BearerGate.Proofs.Run.SingleFlight

namespace BearerGate

theorem Gate.proceed_last {p : Pending} (hp : p.waits = 1) (rules : GateRules) (now : Millis) (unix : Int)
    (o : Outcome) (g : Gate) : ∃ x, (g.proceed rules now unix o p).2 = .ended x := by
  cases p with
  | get t => exact ⟨_, rfl⟩
  | refresh t => exact ⟨_, rfl⟩
  | sweep t rest n =>
      obtain rfl : rest = [] := List.length_eq_zero_iff.mp (Nat.succ.inj hp)
      cases o <;> exact ⟨_, rfl⟩
  | attempt a counted =>
      obtain ⟨t, i, phase, ticket⟩ := a
      cases phase with
      | lookup => cases hp
      | refresh =>
          obtain ⟨v, hv⟩ := Gate.afterRefresh_done rules unix t i (Cache.finishRefresh o)
          exact ⟨.verdict v, by simp only [proceed, resume, hv, ofProgress]⟩

namespace Run

variable {rules : GateRules} {s : Run} {l : List Action} {id : Nat} {p : Pending} {req : Request} {x : Result}

theorem pending?_last (hp : s.pending? id = some p) (hlast : p.waits = 1)
    (hnone : (after rules s l).result? id = none) : (after rules s l).pending? id = some p := by
  induction l using List.reverseRecOn with
  | nil => exact hp
  | append_singleton l a ih =>
      rw [after_concat] at hnone ⊢
      have hbefore : (after rules s l).result? id = none := by
        by_contra h
        obtain ⟨y, hy⟩ := Option.ne_none_iff_exists'.mp h
        rw [result?_step hy] at hnone
        cases hnone
      refine pending?_step (ih hbefore) fun ha => ?_
      subst ha
      by_contra h
      obtain ⟨o, ho⟩ := Option.ne_none_iff_exists'.mp h
      obtain ⟨y, hy⟩ := Gate.proceed_last hlast rules (after rules s l).now (after rules s l).unix o
        (after rules s l).gate
      rw [result?_resume (ih hbefore) ho hy] at hnone
      cases hnone

/-- A call that waits for its last fetch is over or waits for it still, and once this has landed, it has only to
go on. -/
theorem waits_or_ends (hc : s.gate.cache.Tracked) (hp : s.pending? id = some p) (hlast : p.waits = 1)
    (ht : s.InFlight p.ticket) (l : List Action) :
    (∃ x, (after rules s l).result? id = some x) ∨
      (after rules s l).pending? id = some p ∧
        ((after rules s l).InFlight p.ticket ∨
          ∃ x, ((after rules s l).step rules (.resume id)).result? id = some x) := by
  cases hx : (after rules s l).result? id with
  | some x => exact .inl ⟨x, rfl⟩
  | none =>
      have hp' := pending?_last hp hlast hx
      refine .inr ⟨hp', (inFlight_or_lands hc ht l).imp_right ?_⟩
      rintro ⟨o, -, ho⟩
      obtain ⟨x, hx⟩ := Gate.proceed_last hlast rules (after rules s l).now (after rules s l).unix o
        (after rules s l).gate
      exact ⟨x, result?_resume hp' ho hx⟩

theorem Ends.waiting (h : s.Ends rules req l x) (hc : s.gate.cache.Tracked)
    (hp : (s.step rules (.call req)).pending? s.calls.length = some p) (hlast : p.waits = 1)
    (ht : (s.step rules (.call req)).InFlight p.ticket) :
    ∃ l' o, l = l' ++ [.resume s.calls.length] ∧ Lands rules s (.call req :: l') p.ticket o ∧
      ((after rules s (.call req :: l')).gate.proceed rules (after rules s (.call req :: l')).now
        (after rules s (.call req :: l')).unix o p).2 = .ended x := by
  obtain ⟨l₁, a, hl, hnone, hx⟩ := h
  cases l₁ with
  | nil =>
      obtain ⟨rfl, rfl⟩ := List.cons_eq_cons.mp hl
      rw [List.nil_append, result?_eq_some_iff] at hx
      rw [pending?_eq_some_iff] at hp
      cases hp.symm.trans hx
  | cons b l' =>
      obtain ⟨rfl, rfl⟩ := List.cons_eq_cons.mp hl
      rw [after_cons] at hnone
      have hp' := pending?_last hp hlast hnone
      rw [after_concat, after_cons, result?_eq_some_iff] at hx
      rcases calls_step_cases hx with hold | ⟨r, rfl, hid, -⟩ | ⟨q, o, rfl, hq, ho, hk⟩
      · rw [pending?_eq_some_iff] at hp'
        cases hp'.symm.trans hold
      · exact absurd (hid ▸ lt_of_pending? hp') (Nat.lt_irrefl _)
      · obtain rfl := Option.some.inj (hq.symm.trans hp')
        have htracked : (s.step rules (.call req)).gate.cache.Tracked := tracked_after hc [.call req]
        refine ⟨l', o, rfl, ?_, hk.symm⟩
        rcases inFlight_or_lands htracked ht l' with hf | ⟨o', hland, ho'⟩
        · rw [outcome?_of_inFlight (tracked_after htracked l') hf] at ho
          cases ho
        · obtain rfl := Option.some.inj (ho.symm.trans ho')
          exact hland.cons

end Run

end BearerGate
