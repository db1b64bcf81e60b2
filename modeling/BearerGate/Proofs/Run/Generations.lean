import BearerGate.Proofs.Run.Refresh
import BearerGate.Proofs.Run.Returned
import BearerGate.Proofs.Run.Trace

namespace BearerGate

open Cache

namespace Cache

variable {E : Text → Prop} {p : CachePolicy} {now : Millis} {c c' : Cache} {i : Text} {s : Slot}

theorem Changes.record?_or (h : Changes E p now c c') (i : Text) :
    c'.record? i = none ∨ c'.record? i = c.record? i := by
  have hstep {c c' : Cache} (h : Change E p now c c') : c'.record? i = none ∨ c'.record? i = c.record? i := by
    cases h with
    | touch j =>
        have hasks : Change (fun _ => False) p now c (c.touch j) := .touch c j
        exact .inr (hasks.record? id)
    | count t => exact .inr rfl
    | depart j w hf hs =>
        have hasks : Change (fun _ => False) p now c (c.depart now j w) := .depart c j w hf hs
        exact .inr (hasks.record? id)
    | evict j _ =>
        rw [Cache.record?, slot_setSlot]
        split
        · exact .inl rfl
        · exact .inr rfl
  exact h.preserve (P := fun d => d.record? i = none ∨ d.record? i = c.record? i)
    (fun _ _ hd hc => (hstep hd).elim .inl fun he => hc.imp he.trans he.trans) (.inr rfl)

theorem record?_land_of_ok {t : Ticket} {result : Except FetchFault Document} {r : Record}
    (h : outcome p now t.issuer c.generation result = .ok r) :
    (c.land p now t result).record? t.issuer = some r := by
  rw [Cache.record?, slot_land, if_pos rfl, h]
  rfl

theorem sum_started_set (i : Text) (s : Slot) (l : List (Text × Slot)) :
    (Assoc.set i s l).foldr (fun x n => x.2.started + n) 0 + ((l.lookup i).getD {}).started =
      l.foldr (fun x n => x.2.started + n) 0 + s.started := by
  induction l with
  | nil => simp [Assoc.set]
  | cons q l ih =>
      obtain ⟨j, u⟩ := q
      by_cases hj : j = i
      · subst hj
        simp [Assoc.set]
        omega
      · simp only [Assoc.set, hj, if_false, List.foldr_cons, Assoc.lookup_cons_ne (Ne.symm hj)]
        omega

theorem fetches_setSlot (c : Cache) (i : Text) (s : Slot) :
    (c.setSlot i s).fetches + (c.slot i).started = c.fetches + s.started :=
  sum_started_set i s c.slots

theorem fetches_setSlot_eq (h : s.started = (c.slot i).started) : (c.setSlot i s).fetches = c.fetches := by
  have hsum := fetches_setSlot c i s
  omega

/-- Every generation was drawn for a fetch that is over. -/
def Counted (c : Cache) : Prop := c.generation + c.flights.length ≤ c.fetches

theorem Counted.change (h : c.Counted) (hc : Change E p now c c') : c'.Counted := by
  cases hc with
  | count t => exact h
  | touch j =>
      rw [Counted, touch, fetches_setSlot_eq rfl]
      exact h
  | evict j _ =>
      rw [Counted, fetches_setSlot_eq (s := (c.slot j).evict) rfl]
      exact h
  | depart j w _ _ =>
      have hsum : (c.depart now j w).fetches + (c.slot j).started = c.fetches + ((c.slot j).started + 1) :=
        fetches_setSlot c j ((c.slot j).depart now w)
      have hlen : (c.depart now j w).flights.length = c.flights.length + 1 := by simp [Cache.depart]
      have hgen : (c.depart now j w).generation = c.generation := rfl
      rw [Counted] at h ⊢
      omega

theorem Counted.land {t : Ticket} (h : c.Counted) (ht : t ∈ c.flights.map Prod.fst)
    (result : Except FetchFault Document) : (c.land p now t result).Counted := by
  have hsum : (c.land p now t result).fetches = c.fetches := fetches_setSlot_eq (arrive_flight _ _ _ _).2
  have hgen : (c.land p now t result).generation = c.generation + drawn result := rfl
  have hdrawn : drawn result ≤ 1 := by cases result <;> simp [drawn]
  have hlen : (c.land p now t result).flights.length < c.flights.length := by
    obtain ⟨f, hf, rfl⟩ := List.mem_map.mp ht
    exact List.length_filter_lt_length_iff_exists.mpr ⟨f, hf, by simp⟩
  rw [Counted] at h ⊢
  omega

end Cache

namespace Run

variable {rules : GateRules} {s : Run} {l : List Action} {i : Text} {r r' : Record} {epoch : Int}

theorem generation_le_fetches (rules : GateRules) (epoch : Int) (l : List Action) :
    (after rules { epoch := epoch } l).gate.cache.generation ≤
      (after rules { epoch := epoch } l).gate.cache.fetches :=
  Nat.le_of_add_right_le (cache_invariant (s := { epoch := epoch }) (fun _ _ _ _ hc h => Counted.change h hc)
    (fun _ _ _ result ht h => Counted.land h ht result) (Nat.le_refl 0) l)

theorem pairwise_stores (rules : GateRules) (s : Run) (l : List Action) :
    (stores rules s l).Pairwise fun x y => x.2.generation < y.2.generation := by
  induction l using List.reverseRecOn with
  | nil => exact .nil
  | append_singleton l a ih =>
      rw [stores, trace_concat, List.pairwise_append]
      refine ⟨ih, ?_, ?_⟩
      · cases a with
        | pass | call | resume => exact .nil
        | land t result =>
            rw [storedBy]
            split
            · split
              · exact List.pairwise_singleton _ _
              · exact .nil
            · exact .nil
      · intro x hx y hy
        obtain ⟨t, result, -, -, -, ho⟩ := mem_storedBy.mp hy
        rw [(outcome_windowed ho).2.1]
        exact Nat.lt_succ_of_le (mem_stores.mp hx).windowed.2.2

/-- The record in a slot is the newest of all that were fetched of the issuer. -/
theorem newest_after (hr : (after rules { epoch := epoch } l).gate.cache.record? i = some r)
    (h : (i, r') ∈ stores rules { epoch := epoch } l) : r' = r ∨ r'.generation < r.generation := by
  induction l using List.reverseRecOn with
  | nil => cases h
  | append_singleton l a ih =>
      rw [after_concat] at hr
      rw [stores, trace_concat, List.mem_append] at h
      rcases h with h | h
      · rcases step_cache rules (after rules { epoch := epoch } l) a with ⟨t, result, -, -, he⟩ | hc
        · rw [he] at hr
          rcases record?_land rules.policy (after rules { epoch := epoch } l).now t result
              (after rules { epoch := epoch } l).gate.cache i with hold | ⟨-, r'', ho, hr''⟩
          · exact ih (hold ▸ hr) h
          · obtain rfl := Option.some.inj (hr''.symm.trans hr)
            refine .inr ?_
            rw [(outcome_windowed ho).2.1]
            exact Nat.lt_succ_of_le (mem_stores.mp h).windowed.2.2
        · rcases hc.record?_or i with hnone | hold
          · rw [hnone] at hr
            cases hr
          · exact ih (hold ▸ hr) h
      · obtain ⟨t, result, rfl, ht, hi, ho⟩ := mem_storedBy.mp h
        have hland := record?_land_of_ok ho
        rw [step_land ht, show i = t.issuer from hi] at hr
        exact .inl (Option.some.inj (hland.symm.trans hr))

theorem mem_stores_iff_new : (i, r) ∈ stores rules { epoch := epoch } l ↔
    ∃ l₁ a l₂, l = l₁ ++ a :: l₂ ∧ (after rules { epoch := epoch } l₁).gate.cache.record? i ≠ some r ∧
      (after rules { epoch := epoch } (l₁ ++ [a])).gate.cache.record? i = some r := by
  constructor
  · intro h
    obtain ⟨l₁, a, l₂, rfl, hx⟩ := mem_trace.mp h
    obtain ⟨t, result, rfl, ht, hi, ho⟩ := mem_storedBy.mp hx
    refine ⟨l₁, _, l₂, rfl, fun hr => ?_, ?_⟩
    · have hg := ((sound_after rules epoch l₁).cache.record? hr).windowed.2.2
      rw [(outcome_windowed ho).2.1] at hg
      exact Nat.lt_irrefl _ hg
    · rw [after_concat, step_land ht, show i = t.issuer from hi]
      exact record?_land_of_ok ho
  · rintro ⟨l₁, a, l₂, rfl, -, hr⟩
    have hland := ((sound_after rules epoch (l₁ ++ [a])).cache.record? hr).append l₂
    rw [List.append_assoc] at hland
    exact mem_stores.mpr hland

theorem Returned.refresh_ends {l' : List Action} {seen : Record}
    (hseen : Returned rules { epoch := epoch } l seen)
    (h : (after rules { epoch := epoch } l).Ends rules (.refresh seen) l' (.record (.ok r))) :
    r.issuer = seen.issuer ∧ (r = seen ∨ seen.generation < r.generation) := by
  have hstored := hseen.landed
  obtain ⟨a, he, ha⟩ := h.refreshed (tracked_after .empty l)
  obtain rfl := Result.record.inj he
  generalize hok : Except.ok r = a at ha
  cases ha with
  | settled o _ _ ho =>
      cases o with
      | error f => cases hok
      | ok r' =>
          obtain rfl := Except.ok.inj hok
          have hr := record_of_settled? ho
          refine ⟨((sound_after rules epoch l).cache.record? hr).issuer, ?_⟩
          exact (newest_after hr (mem_stores.mpr hstored)).imp_left Eq.symm
  | landed t o ht _ hland =>
      cases o with
      | error f => cases hok
      | ok r' =>
          obtain rfl := Except.ok.inj hok
          have hlanded : Landed rules (after rules { epoch := epoch } l) (.call (.refresh seen) :: l')
              seen.issuer (.ok r) := ⟨t, ht, hland⟩
          exact ⟨hlanded.issuer, .inr (Nat.lt_of_le_of_lt hstored.windowed.2.2 hlanded.windowed.2.1)⟩

/-- What a slot holds, what is stored, and what a forced refresh returns is ordered by generations. No
generation is greater than the count of fetches. -/
structure Ordered (rules : GateRules) (epoch : Int) (l : List Action) : Prop where
  increasing : (stores rules { epoch := epoch } l).Pairwise fun x y => x.2.generation < y.2.generation
  stored : ∀ i r, (i, r) ∈ stores rules { epoch := epoch } l ↔
    ∃ l₁ a l₂, l = l₁ ++ a :: l₂ ∧ (after rules { epoch := epoch } l₁).gate.cache.record? i ≠ some r ∧
      (after rules { epoch := epoch } (l₁ ++ [a])).gate.cache.record? i = some r
  bounded : ∀ x ∈ stores rules { epoch := epoch } l,
    x.2.generation ≤ (after rules { epoch := epoch } l).gate.cache.fetches
  refresh : ∀ seen, Returned rules { epoch := epoch } l seen → ∀ l' r,
    (after rules { epoch := epoch } l).Ends rules (.refresh seen) l' (.record (.ok r)) →
      r.issuer = seen.issuer ∧ (r = seen ∨ seen.generation < r.generation)

theorem ordered (rules : GateRules) (epoch : Int) (l : List Action) : Ordered rules epoch l where
  increasing := pairwise_stores rules _ l
  stored _ _ := mem_stores_iff_new
  bounded x hx := by
    have hg := (mem_stores.mp hx).windowed.2.2
    exact Nat.le_trans hg (generation_le_fetches rules epoch l)
  refresh _ hseen _ _ h := hseen.refresh_ends h

end Run

end BearerGate
