import BearerGate.Proofs.Cache.Frame
import BearerGate.Proofs.Run.Generations
import BearerGate.Proofs.Run.SlotStep

namespace BearerGate.Run

open Cache

variable {rules : GateRules} {s : Run} {l l' l'' : List Action} {a : Action} {i url : Text} {r seen : Record}
  {epoch : Int}

theorem Landed.prepend {o : Outcome} (h : Landed rules (after rules s l) l' i o) :
    Landed rules s (l ++ l') i o := by
  obtain ⟨t, ht, l₁, result, l₂, rfl, hf, ho⟩ := h
  rw [← after_append] at hf ho
  exact ⟨t, ht, l ++ l₁, result, l₂, by simp, hf, ho⟩

theorem landed_of_record? (hr : (after rules s l).gate.cache.record? i = some r) :
    s.gate.cache.record? i = some r ∨ Landed rules s l i (.ok r) := by
  induction l using List.reverseRecOn with
  | nil => exact .inl hr
  | append_singleton l a ih =>
      rw [after_concat] at hr
      have hold (h : (after rules s l).gate.cache.record? i = some r) :
          s.gate.cache.record? i = some r ∨ Landed rules s (l ++ [a]) i (.ok r) :=
        (ih h).imp_right fun h => h.append [a]
      rcases step_cache rules (after rules s l) a with ⟨t, result, rfl, ht, he⟩ | hc
      · rw [he] at hr
        rcases record?_land rules.policy (after rules s l).now t result (after rules s l).gate.cache i with
          hsame | ⟨hi, r', ho, hr'⟩
        · exact hold (hsame ▸ hr)
        · obtain rfl := Option.some.inj (hr'.symm.trans hr)
          exact .inr ⟨t, hi, l, result, [], rfl, ht, hi ▸ ho.symm⟩
      · rcases hc.record?_or i with hnone | hsame
        · rw [hnone] at hr
          cases hr
        · exact hold (hsame ▸ hr)

theorem record?_of_evicts (hc : s.gate.cache.Tracked) (ha : a.Evicts rules i) :
    (s.step rules a).gate.cache.record? i = none := by
  obtain ⟨x, fetches, hx, -, hstep⟩ := exists_slotStep hc rules a i
  rw [record?, hx]
  cases hstep with
  | stays hne | departs _ hne | arrives _ hne => exact absurd ha hne
  | empties => rfl

theorem slot?_of_evicts (ha : a.Evicts rules i) {j : Text} (hj : j ≠ i) :
    (s.step rules a).gate.cache.slot? j = s.gate.cache.slot? j := by
  cases a with
  | pass | land | resume => exact ha.elim
  | call r =>
      cases r with
      | get | refresh | sweep | verify | authenticate => exact ha.elim
      | evict url =>
          have hne : canonical rules.trust (canonical rules.trust url) ≠ j := fun h => hj (h.symm.trans ha)
          exact (sameFor_evict hne).slot?
      | forget url =>
          have hne : canonical rules.trust url ≠ j := fun h => hj (h.symm.trans ha)
          exact (sameFor_evict hne).slot?

/-- The record was stored in the course of the actions `l'`, which follow on the eviction `a`, and it is newer than
all that were stored before. -/
structure StoredSince (rules : GateRules) (epoch : Int) (l : List Action) (a : Action) (l' : List Action)
    (i : Text) (r : Record) : Prop where
  stored : (i, r) ∈ stores rules (after rules { epoch := epoch } (l ++ [a])) l'
  newer : ∀ x ∈ stores rules { epoch := epoch } l, x.2.generation < r.generation

theorem StoredSince.of_landed (h : Landed rules (after rules { epoch := epoch } (l ++ [a])) l' i (.ok r)) :
    StoredSince rules epoch l a l' i r where
  stored := mem_stores.mpr h
  newer x hx := by
    have hle : x.2.generation ≤ (after rules { epoch := epoch } l).gate.cache.generation :=
      (mem_stores.mp hx).windowed.2.2
    have hgrows := generation_le_after rules (after rules { epoch := epoch } l) [a]
    rw [← after_append] at hgrows
    exact Nat.lt_of_le_of_lt (Nat.le_trans hle hgrows) h.windowed.2.1

/-- After the eviction `a` of the issuer, everything that is given away of it has been stored since, and the slots
of the other issuers are what they were. -/
structure Forgets (rules : GateRules) (epoch : Int) (l : List Action) (a : Action) (i : Text) : Prop where
  others : ∀ j, j ≠ i → (after rules { epoch := epoch } (l ++ [a])).gate.cache.slot? j =
    (after rules { epoch := epoch } l).gate.cache.slot? j
  peek : ∀ l' url j r, rules.trust.resolve? url = some j → j.url = i →
    (after rules { epoch := epoch } (l ++ a :: l')).gate.cache.peek? rules.trust url = some r →
      StoredSince rules epoch l a l' i r
  get : ∀ l' url j l'' r, rules.trust.resolve? url = some j → j.url = i →
    (after rules { epoch := epoch } (l ++ a :: l')).Ends rules (.get url) l'' (.record (.ok r)) →
      StoredSince rules epoch l a (l' ++ .call (.get url) :: l'') i r
  refresh : ∀ l' seen l'' r, seen.issuer = i →
    (after rules { epoch := epoch } (l ++ a :: l')).Ends rules (.refresh seen) l'' (.record (.ok r)) →
      StoredSince rules epoch l a (l' ++ .call (.refresh seen) :: l'') i r

section Evicted

variable (h : s.gate.cache.record? i = none)

include h

theorem landed_of_emptied (hr : (after rules s l).gate.cache.record? i = some r) : Landed rules s l i (.ok r) := by
  rcases landed_of_record? hr with hold | hland
  · cases h.symm.trans hold
  · exact hland

theorem landed_of_get {j : TrustedIssuer} (hc : s.gate.cache.Tracked) (hj : rules.trust.resolve? url = some j)
    (hi : j.url = i) (hends : (after rules s l).Ends rules (.get url) l' (.record (.ok r))) :
    Landed rules s (l ++ .call (.get url) :: l') i (.ok r) := by
  subst hi
  obtain ⟨b, hb, hlookup⟩ := hends.lookup (tracked_after hc l) hj
  obtain rfl := Result.record.inj hb
  cases hlookup with
  | atHand _ count _ hat => exact (landed_of_emptied h (atHand?_record hat)).append _
  | fetched _ hland => exact hland.prepend
  | stale _ hr _ =>
      rw [← after_append] at hr
      exact landed_of_emptied h hr

theorem landed_of_refresh (hc : s.gate.cache.Tracked) (hi : seen.issuer = i)
    (hends : (after rules s l).Ends rules (.refresh seen) l' (.record (.ok r))) :
    Landed rules s (l ++ .call (.refresh seen) :: l') i (.ok r) := by
  subst hi
  obtain ⟨b, hb, hrefresh⟩ := hends.refreshed (tracked_after hc l)
  obtain rfl := Result.record.inj hb
  generalize hok : Except.ok r = b at hrefresh
  cases hrefresh with
  | settled o _ _ ho =>
      cases o with
      | error f => cases hok
      | ok r' =>
          obtain rfl := Except.ok.inj hok
          exact (landed_of_emptied h (record_of_settled? ho)).append _
  | landed t o ht _ hland =>
      cases o with
      | error f => cases hok
      | ok r' =>
          obtain rfl := Except.ok.inj hok
          have hlanded : Landed rules (after rules s l) (.call (.refresh seen) :: l') seen.issuer (.ok r) :=
            ⟨t, ht, hland⟩
          exact hlanded.prepend

end Evicted

/-- An eviction is final for the records from before it. -/
theorem forgets (rules : GateRules) (epoch : Int) (l : List Action) (ha : a.Evicts rules i) :
    Forgets rules epoch l a i := by
  have hc : (after rules { epoch := epoch } (l ++ [a])).gate.cache.Tracked := tracked_after .empty _
  have hnone : (after rules { epoch := epoch } (l ++ [a])).gate.cache.record? i = none := by
    rw [after_concat]
    exact record?_of_evicts (tracked_after .empty l) ha
  have hsplit (l' : List Action) : after rules { epoch := epoch } (l ++ a :: l') =
      after rules (after rules { epoch := epoch } (l ++ [a])) l' := by
    rw [← after_append, List.append_assoc, List.singleton_append]
  refine ⟨fun j hj => ?_, fun l' url j r hj hi hr => ?_, fun l' url j l'' r hj hi h => ?_,
    fun l' seen l'' r hi h => ?_⟩
  · rw [after_concat]
    exact slot?_of_evicts ha hj
  · rw [hsplit, peek?, hj, Option.bind_some, hi] at hr
    exact .of_landed (landed_of_emptied hnone hr)
  · rw [hsplit] at h
    exact .of_landed (landed_of_get hnone hc hj hi h)
  · rw [hsplit] at h
    exact .of_landed (landed_of_refresh hnone hc hi h)

def refreshing : List Action := staleRun ++ [.call (.refresh abcRecord)]

theorem forgets_refreshing :
    (after abcRules { epoch := 0 } refreshing).gate.cache.record? "https://idp.example/abc" = some abcRecord ∧
      (after abcRules { epoch := 0 } refreshing).InFlight ⟨"https://idp.example/abc", 1⟩ ∧
        (Action.call (.forget "HTTPS://IDP.example/abc/")).Evicts abcRules "https://idp.example/abc" ∧
          Forgets abcRules 0 refreshing (.call (.forget "HTTPS://IDP.example/abc/"))
            "https://idp.example/abc" := by
  have ha : (Action.call (.forget "HTTPS://IDP.example/abc/")).Evicts abcRules "https://idp.example/abc" := by
    change canonical abcRules.trust "HTTPS://IDP.example/abc/" = "https://idp.example/abc"
    decide +kernel
  refine ⟨?_, ?_, ha, forgets abcRules 0 refreshing ha⟩
  · decide +kernel
  · decide +kernel

end BearerGate.Run
