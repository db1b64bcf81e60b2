import BearerGate.Proofs.Cache.Frame
import BearerGate.Proofs.Cache.Holds
import BearerGate.Proofs.Run.Change

namespace BearerGate

open Cache

namespace Gate

variable {rules : GateRules} {now : Millis} {unix : Int} {Q : Text → Outcome → Prop} {g : Gate} {i : Text}

theorem mem_of_mem_arrange {order : List Text} {l : List Due} {d : Due} (h : d ∈ arrange order l) : d ∈ l := by
  induction order generalizing l with
  | nil => exact h
  | cons j order ih =>
      rw [arrange] at h
      rcases List.mem_append.mp h with h | h
      · exact List.mem_of_mem_filter h
      · exact List.mem_of_mem_filter (ih h)

theorem sameFor_afterLookup {a : Except AuthFault Record} (h : ∀ r, a = .ok r → r.issuer ≠ i) (t : Unverified)
    (e : TrustedIssuer) (c : Cache) : SameFor i c (afterLookup rules now unix t e a c).1 := by
  cases a with
  | error f => exact .refl i c
  | ok r =>
      have hcount : SameFor i c { c with tally := c.tally.keyRefresh } := (SameFor.refl i c).count _
      have hr := hcount.trans (sameFor_refresh rules.cache now (h r rfl))
      rw [afterLookup]
      split
      · exact .refl i c
      · exact .refl i c
      · split
        · rename_i he
          rwa [he] at hr
        · rename_i he
          rwa [he] at hr

/-- What is needed for an issuer to be left alone: it is not accepted, and all records are of the issuers
under whose URLs they are kept. -/
structure Leaves (rules : GateRules) (Q : Text → Outcome → Prop) (i : Text) : Prop where
  resolve : ∀ url k, rules.trust.resolve? url = some k → k.url ≠ i
  issuer : ∀ j r, Q j (.ok r) → r.issuer = j

theorem Leaves.verify (h : Leaves rules Q i) (hc : g.cache.Holds Q) (raw : Text) :
    SameFor i g.cache (g.verify rules now unix raw).1.cache := by
  rw [Gate.verify]
  split
  · exact .refl i _
  · rename_i t _
    have hcache := engine_cache rules t.issuer g
    split
    · rename_i g' he
      rw [he] at hcache
      rw [← hcache]
      exact .refl i _
    · rename_i g' e he
      rw [he] at hcache
      rw [← hcache] at hc ⊢
      have hget : SameFor i g'.cache (g'.cache.get rules.cache now e.url).1 := sameFor_get (h.resolve e.url)
      split
      · rename_i hr
        rwa [hr] at hget
      · rename_i c a hr
        rw [hr] at hget
        refine hget.trans (sameFor_afterLookup ?_ _ _ _)
        rintro r rfl
        cases hk : rules.cache.trust.resolve? e.url with
        | none =>
            rw [get_untrusted rules.cache hk] at hr
            cases hr
        | some k =>
            have htold := hc.get rules.cache now hk
            rw [hr] at htold
            rw [h.issuer k.url r htold]
            exact h.resolve e.url k hk

theorem Leaves.resume (h : Leaves rules Q i) (hc : g.cache.Holds Q) {a : Attempt} {o : Outcome}
    (ho : Q a.ticket.issuer o) (ht : a.ticket.issuer ≠ i) :
    SameFor i g.cache (g.resume rules now unix a o).1.cache := by
  rw [Gate.resume]
  split
  · refine (sameFor_finishGet i _ o g.cache).trans (sameFor_afterLookup ?_ _ _ _)
    intro r hr
    have htold := hc.finishGet now ho
    rw [hr] at htold
    rw [h.issuer _ r htold]
    exact ht
  · exact .refl i _

theorem Leaves.start (h : Leaves rules Q i) (hc : g.cache.Holds Q) (hslot : g.cache.slot? i = none) {r : Request}
    (hseen : ∀ seen, r = .refresh seen → seen.issuer ≠ i) :
    SameFor i g.cache (g.start rules now unix r).1.cache := by
  have hevict (url : Text) : SameFor i g.cache (g.cache.evict rules.trust url).1 := by
    by_cases hi : canonical rules.trust url = i
    · rw [← hi] at hslot
      rw [evict_of_none hslot]
      exact .refl i _
    · exact sameFor_evict hi
  cases r with
  | get url =>
      rw [Gate.start, ofLookup_cache]
      exact sameFor_get (h.resolve url)
  | refresh seen =>
      rw [Gate.start, ofLookup_cache]
      exact sameFor_refresh _ _ (hseen seen rfl)
  | sweep horizon order =>
      rw [Gate.start, ofSweep_cache]
      apply sameFor_sweep
      intro d hd he
      exact slot?_of_mem_due (mem_of_mem_arrange hd) (he ▸ hslot)
  | verify token | authenticate token =>
      rw [Gate.start, ofProgress_cache]
      exact h.verify hc token
  | evict url => exact hevict _
  | forget url => exact hevict _

theorem start_sweep {r : Request} {t : Ticket} {rest : List Due} {n : Nat}
    (h : (g.start rules now unix r).2 = .waiting (.sweep t rest n)) :
    ∃ horizon order, r = .sweep horizon order ∧
      (g.cache.sweep rules.cache now (arrange order (g.cache.due (now + horizon))) 0).2 = .wait t rest n := by
  cases r with
  | sweep horizon order =>
      refine ⟨horizon, order, rfl, ?_⟩
      rw [Gate.start] at h
      generalize g.cache.sweep rules.cache now _ 0 = x at h ⊢
      obtain ⟨c, w⟩ := x
      cases w <;> cases h
      rfl
  | get url | refresh seen =>
      simp only [Gate.start, ofLookup] at h
      split at h <;> cases h
  | verify token | authenticate token =>
      simp only [Gate.start, ofProgress] at h
      split at h <;> cases h
  | evict url | forget url => cases h

theorem proceed_sweep {p : Pending} {o : Outcome} {t : Ticket} {rest : List Due} {n : Nat}
    (h : (g.proceed rules now unix o p).2 = .waiting (.sweep t rest n)) :
    ∃ u due m, p = .sweep u due m ∧ ∀ d ∈ rest, d ∈ due := by
  cases p with
  | get | refresh => cases h
  | sweep u due m =>
      refine ⟨u, due, m, rfl, fun d hd => ?_⟩
      rw [Gate.proceed] at h
      have hw : (g.cache.resumeSweep rules.cache now o due m).2 = .wait t rest n := by
        generalize g.cache.resumeSweep rules.cache now o due m = x at h ⊢
        obtain ⟨c, w⟩ := x
        cases w <;> cases h
        rfl
      cases o <;> exact mem_of_sweep_wait hw hd
  | attempt a counted =>
      simp only [Gate.proceed, ofProgress] at h
      split at h <;> cases h

end Gate

end BearerGate

