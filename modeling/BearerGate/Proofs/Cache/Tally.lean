import BearerGate.Proofs.Cache.Windows

namespace BearerGate

def Reply.record? : Reply (Except AuthFault Record) → Option Record
  | .done (.ok r) => some r
  | _ => none

@[simp] theorem Reply.record?_wait (t : Ticket) : (Reply.wait t).record? = none := rfl

namespace Cache

variable {p : CachePolicy} {rules : CacheRules} {now : Millis} {c c' : Cache} {i : Text}

theorem request_tally (p : CachePolicy) (now : Millis) (i : Text) (w : Wanted) (c : Cache) :
    (c.request p now i w).1.tally = c.tally := by
  rcases request_cases p now i w c with ⟨n, -, h⟩ | ⟨-, ⟨o, -, h⟩ | ⟨-, h⟩⟩
  · rw [h]
  · rw [h]
  · rw [h]
    rfl

theorem refresh_tally (rules : CacheRules) (now : Millis) (seen : Record) (c : Cache) :
    (c.refresh rules now seen).1.tally = c.tally := by
  rw [refresh_eq, Prod.map_fst, id, request_tally]
  rfl

theorem sweep_tally (rules : CacheRules) (now : Millis) (due : List Due) (n : Nat) (c : Cache) :
    (c.sweep rules now due n).1.tally = c.tally := by
  induction due generalizing n c with
  | nil => rfl
  | cons d rest ih =>
      have h := request_tally rules.policy now d.issuer (.newer d.generation) c
      rw [sweep]
      split
      · rename_i he
        rwa [he] at h
      · rename_i he
        rw [he] at h
        rw [ih, h]
      · rename_i he
        rw [he] at h
        rw [ih, h]

theorem resumeSweep_tally (rules : CacheRules) (now : Millis) (o : Outcome) (rest : List Due) (n : Nat)
    (c : Cache) : (c.resumeSweep rules now o rest n).1.tally = c.tally := by
  cases o <;> exact sweep_tally _ _ _ _ _

theorem evict_tally (trust : TrustPolicy) (url : Text) (c : Cache) :
    (c.evict trust url).1.tally = c.tally := by
  simp only [evict]
  split <;> rfl

/-- A lookup that has waited counts when it returns a record, as a miss if this is the record of its fetch. -/
theorem finishGet_tally (now : Millis) (i : Text) (o : Outcome) (c : Cache) :
    (c.finishGet now i o).1.tally = (c.finishGet now i o).2.toOption.elim c.tally fun r =>
      if o = .ok r then c.tally.miss else c.tally.stale := by
  cases o with
  | ok r => simp [finishGet, Except.toOption]
  | error f =>
      cases hr : (c.record? i).filter (·.isUsable now) with
      | none => simp [finishGet, hr, Except.toOption]
      | some r => simp [finishGet, hr, Except.toOption]

theorem atHand?_count {s : Slot} {r : Record} {count : Tally → Tally} (h : atHand? now s = some (r, count)) :
    count = if r.isFresh now then Tally.hit else Tally.stale := by
  rw [atHand?] at h
  split at h
  · split at h
    · rename_i hf
      cases h
      rw [if_pos hf]
    · rename_i hf
      split at h
      · cases h
        rw [if_neg hf]
      · cases h
  · cases h

theorem get_tally (rules : CacheRules) (now : Millis) (url : Text) (c : Cache) :
    (c.get rules now url).1.tally = (c.get rules now url).2.record?.elim c.tally fun r =>
      if r.isFresh now then c.tally.hit else c.tally.stale := by
  cases hj : rules.trust.resolve? url with
  | none =>
      rw [get_untrusted rules hj]
      rfl
  | some j =>
      rcases get_settles rules now c hj with ⟨r, count, ha, hget⟩ | ⟨ha, ⟨t, -, hwait⟩ | ⟨f, -, -, hget⟩⟩
      · simp only [hget, Reply.record?, Option.elim_some, atHand?_count ha]
        split <;> rfl
      · have hrequest := request_tally rules.policy now j.url .fresh (c.touch j.url)
        rw [hwait, Reply.record?_wait, Option.elim_none]
        rw [get_eq rules now hj ha] at hwait ⊢
        generalize (c.touch j.url).request rules.policy now j.url .fresh = x at hrequest hwait ⊢
        obtain ⟨c', reply⟩ := x
        cases reply with
        | wait u => exact hrequest
        | done o => cases hwait
      · rw [hget]
        rfl

theorem get_record? {rules : CacheRules} {url : Text} {r : Record}
    (h : (c.get rules now url).2.record? = some r) :
    ∃ j, rules.trust.resolve? url = some j ∧ c.record? j.url = some r := by
  cases hj : rules.trust.resolve? url with
  | none =>
      rw [get_untrusted rules hj] at h
      cases h
  | some j =>
      rcases get_settles rules now c hj with ⟨r', count, ha, hget⟩ | ⟨-, ⟨t, -, hwait⟩ | ⟨f, -, -, hget⟩⟩
      · rw [hget] at h
        obtain rfl := Option.some.inj h
        exact ⟨j, rfl, atHand?_record ha⟩
      · rw [hwait] at h
        cases h
      · rw [hget] at h
        cases h

theorem get_waits {rules : CacheRules} {url : Text} {t : Ticket} (h : (c.get rules now url).2 = .wait t) :
    atHand? now (c.slot t.issuer) = none := by
  cases hj : rules.trust.resolve? url with
  | none =>
      rw [get_untrusted rules hj] at h
      cases h
  | some j =>
      rcases get_settles rules now c hj with ⟨r', count, ha, hget⟩ | ⟨ha, ⟨u, hu, hwait⟩ | ⟨f, -, -, hget⟩⟩
      · rw [hget] at h
        cases h
      · rw [hwait] at h
        obtain rfl := Reply.wait.inj h
        rwa [hu]
      · rw [hget] at h
        cases h

end Cache

end BearerGate
