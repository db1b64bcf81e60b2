import BearerGate.Proofs.Run.Change
import Mathlib.Data.List.Nodup

namespace BearerGate

namespace Cache

variable {E : Text → Prop} {p : CachePolicy} {now : Millis} {c c' : Cache} {t : Ticket}

/-- The fetches under way are those that the slots are marked with, and what has landed is over. -/
structure Tracked (c : Cache) : Prop where
  flight_iff : ∀ t, t ∈ c.flights.map Prod.fst ↔ (c.slot t.issuer).flight = some t.number
  nodup : (c.flights.map Prod.fst).Nodup
  flight_lt : ∀ i n, (c.slot i).flight = some n → n < (c.slot i).started
  landed_lt : ∀ x ∈ c.landed, x.1.number < (c.slot x.1.issuer).started
  not_landed : ∀ x ∈ c.landed, x.1 ∉ c.flights.map Prod.fst

theorem Tracked.empty : Tracked {} where
  flight_iff _ := by simp [slot, slot?]
  nodup := .nil
  flight_lt _ _ h := by simp [slot, slot?] at h
  landed_lt _ h := nomatch h
  not_landed _ h := nomatch h

theorem Tracked.eq_of_issuer (h : c.Tracked) {u : Ticket} (ht : t ∈ c.flights.map Prod.fst)
    (hu : u ∈ c.flights.map Prod.fst) (he : t.issuer = u.issuer) : t = u := by
  have htn := (h.flight_iff t).mp ht
  have hun := (h.flight_iff u).mp hu
  rw [he, hun, Option.some.injEq] at htn
  cases t
  cases u
  simp_all

theorem Tracked.not_mem_flights (h : c.Tracked) (hf : (c.slot t.issuer).flight = none) :
    t ∉ c.flights.map Prod.fst := by
  rw [h.flight_iff, hf]
  exact nofun

theorem Tracked.congr (h : c.Tracked) (hf : c'.flights = c.flights) (hl : c'.landed = c.landed)
    (hslot : ∀ i, (c'.slot i).flight = (c.slot i).flight ∧ (c'.slot i).started = (c.slot i).started) :
    c'.Tracked where
  flight_iff t := by rw [hf, (hslot _).1, h.flight_iff]
  nodup := hf ▸ h.nodup
  flight_lt i n hn := by
    rw [(hslot i).1] at hn
    rw [(hslot i).2]
    exact h.flight_lt i n hn
  landed_lt x hx := by
    rw [(hslot _).2]
    exact h.landed_lt x (hl ▸ hx)
  not_landed x hx := hf ▸ h.not_landed x (hl ▸ hx)

theorem Tracked.touch (h : c.Tracked) (i : Text) : (c.touch i).Tracked :=
  h.congr rfl rfl fun j => by simp

theorem slot_depart (now : Millis) (i j : Text) (w : Wanted) (c : Cache) :
    (c.depart now i w).slot j = if j = i then (c.slot i).depart now w else c.slot j :=
  slot_setSlot c i j _

theorem flights_depart (now : Millis) (i : Text) (w : Wanted) (c : Cache) :
    (c.depart now i w).flights.map Prod.fst = c.flights.map Prod.fst ++ [⟨i, (c.slot i).started⟩] := by
  simp [Cache.depart]

theorem Tracked.depart (h : c.Tracked) {i : Text} (hf : (c.slot i).flight = none) (w : Wanted) :
    (c.depart now i w).Tracked := by
  have hnew : (⟨i, (c.slot i).started⟩ : Ticket) ∉ c.flights.map Prod.fst := h.not_mem_flights hf
  refine ⟨fun t => ?_, ?_, fun j n hn => ?_, fun x hx => ?_, fun x hx => ?_⟩
  · rw [slot_depart, flights_depart, List.mem_append, List.mem_singleton]
    split
    · rename_i hi
      have hout : t ∉ c.flights.map Prod.fst := h.not_mem_flights (hi ▸ hf)
      obtain ⟨j, n⟩ := t
      obtain rfl : j = i := hi
      simp only [hout, Ticket.mk.injEq, true_and, false_or]
      exact ⟨fun he => congrArg some he.symm, fun he => (Option.some.inj he).symm⟩
    · rename_i hi
      have hne : t ≠ ⟨i, (c.slot i).started⟩ := fun he => hi (he ▸ rfl)
      simp [hne, h.flight_iff]
  · rw [flights_depart, ← List.concat_eq_append]
    exact h.nodup.concat hnew
  · rw [slot_depart] at hn ⊢
    split
    · rename_i hj
      rw [if_pos hj] at hn
      obtain rfl := Option.some.inj hn
      exact Nat.lt_succ_self _
    · rename_i hj
      rw [if_neg hj] at hn
      exact h.flight_lt j n hn
  · have hlt := h.landed_lt x hx
    rw [slot_depart]
    split
    · rename_i hi
      rw [hi] at hlt
      exact Nat.lt_succ_of_lt hlt
    · exact hlt
  · have hold := h.not_landed x hx
    have hlt := h.landed_lt x hx
    have hne : x.1 ≠ ⟨i, (c.slot i).started⟩ := by
      intro he
      rw [he] at hlt
      exact Nat.lt_irrefl _ hlt
    rw [flights_depart, List.mem_append, List.mem_singleton, not_or]
    exact ⟨hold, hne⟩

theorem Tracked.change (h : c.Tracked) (hc : Change E p now c c') : c'.Tracked := by
  cases hc with
  | touch i => exact h.congr rfl rfl fun j => by simp
  | count t => exact h.congr rfl rfl fun _ => ⟨rfl, rfl⟩
  | depart i w hf _ => exact h.depart hf w
  | evict i _ =>
      refine h.congr rfl rfl fun j => ?_
      rw [slot_setSlot]
      split
      · rename_i hj
        rw [hj]
        exact ⟨rfl, rfl⟩
      · exact ⟨rfl, rfl⟩

theorem slot_land (p : CachePolicy) (now : Millis) (t : Ticket) (result : Except FetchFault Document)
    (c : Cache) (j : Text) :
    (c.land p now t result).slot j =
      if j = t.issuer then (c.slot t.issuer).arrive p now (outcome p now t.issuer c.generation result)
      else c.slot j :=
  slot_setSlot c t.issuer j _

theorem flights_land (p : CachePolicy) (now : Millis) (t : Ticket) (result : Except FetchFault Document)
    (c : Cache) :
    (c.land p now t result).flights.map Prod.fst = (c.flights.map Prod.fst).filter (· ≠ t) := by
  simp [land, List.filter_map, Function.comp_def]

theorem arrive_flight (s : Slot) (p : CachePolicy) (now : Millis) (o : Outcome) :
    (s.arrive p now o).flight = none ∧ (s.arrive p now o).started = s.started := by
  cases o <;> exact ⟨rfl, rfl⟩

theorem Tracked.land (h : c.Tracked) (ht : t ∈ c.flights.map Prod.fst)
    (result : Except FetchFault Document) : (c.land p now t result).Tracked := by
  have hstarted (j : Text) : ((c.land p now t result).slot j).started = (c.slot j).started := by
    rw [slot_land]
    split
    · rename_i hj
      rw [hj, (arrive_flight _ _ _ _).2]
    · rfl
  refine ⟨fun u => ?_, ?_, fun j n hn => ?_, fun x hx => ?_, fun x hx => ?_⟩
  · rw [flights_land, List.mem_filter, slot_land]
    split
    · rename_i hu
      rw [(arrive_flight _ _ _ _).1]
      simp only [decide_eq_true_eq, reduceCtorEq, iff_false, not_and, Decidable.not_not]
      exact fun hm => h.eq_of_issuer hm ht hu
    · rename_i hu
      have hne : u ≠ t := fun he => hu (he ▸ rfl)
      simp [hne, h.flight_iff]
  · rw [flights_land]
    exact h.nodup.filter _
  · rw [hstarted]
    rw [slot_land] at hn
    split at hn
    · rw [(arrive_flight _ _ _ _).1] at hn
      cases hn
    · exact h.flight_lt j n hn
  · rw [hstarted]
    rcases List.mem_append.mp hx with hx | hx
    · exact h.landed_lt x hx
    · obtain rfl := List.mem_singleton.mp hx
      exact h.flight_lt _ _ ((h.flight_iff t).mp ht)
  · rw [flights_land, List.mem_filter]
    rcases List.mem_append.mp hx with hx | hx
    · exact fun hm => h.not_landed x hx hm.1
    · obtain rfl := List.mem_singleton.mp hx
      simp

theorem Tracked.outcome?_land (h : c.Tracked) (ht : t ∈ c.flights.map Prod.fst)
    (result : Except FetchFault Document) :
    (c.land p now t result).outcome? t = some (outcome p now t.issuer c.generation result) := by
  have hnew : c.landed.lookup t = none := by
    rw [List.lookup_eq_none_iff]
    intro x hx
    rw [bne_iff_ne]
    rintro rfl
    exact h.not_landed x hx ht
  simp [outcome?, Cache.land, List.lookup_append, hnew]

theorem outcome?_land_of_some {o : Outcome} {u : Ticket} (h : c.outcome? u = some o)
    (result : Except FetchFault Document) : (c.land p now t result).outcome? u = some o := by
  rw [outcome?] at h
  simp [outcome?, Cache.land, List.lookup_append, h]

theorem Changes.landed_eq (h : Changes E p now c c') : c'.landed = c.landed := by
  induction h with
  | refl => rfl
  | tail _ h ih =>
      rw [← ih]
      cases h <;> rfl

theorem Tracked.changes (h : c.Tracked) (hc : Changes E p now c c') : c'.Tracked :=
  hc.preserve (fun _ _ hc h => h.change hc) h

theorem Tracked.request_wait (h : c.Tracked) {i : Text} {w : Wanted}
    (ht : (c.request p now i w).2 = .wait t) : t ∈ (c.request p now i w).1.flights.map Prod.fst := by
  rcases request_cases p now i w c with ⟨n, hn, hr⟩ | ⟨-, ⟨o, -, hr⟩ | ⟨-, hr⟩⟩
  · rw [hr] at ht ⊢
    obtain rfl := Reply.wait.inj ht
    exact (h.flight_iff ⟨i, n⟩).mpr hn
  · rw [hr] at ht
    cases ht
  · rw [hr] at ht ⊢
    obtain rfl := Reply.wait.inj ht
    rw [flights_depart]
    exact List.mem_append_right _ (List.mem_singleton_self _)

theorem Tracked.get_wait {rules : CacheRules} (h : c.Tracked) {url : Text}
    (ht : (c.get rules now url).2 = .wait t) : t ∈ (c.get rules now url).1.flights.map Prod.fst := by
  cases hj : rules.trust.resolve? url with
  | none =>
      rw [get_untrusted rules hj] at ht
      cases ht
  | some j =>
      have hr : ((c.touch j.url).request rules.policy now j.url .fresh).2 = .wait t → _ :=
        (h.touch j.url).request_wait
      rcases get_cases rules now c hj with ⟨r, count, -, hget⟩ | ⟨-, ⟨c', u, he, hget⟩ | ⟨c', o, -, hget⟩⟩
      · rw [hget] at ht
        cases ht
      · rw [he] at hr
        rw [hget] at ht ⊢
        obtain rfl := Reply.wait.inj ht
        exact hr rfl
      · rw [hget] at ht
        cases ht

theorem Tracked.refresh_wait {rules : CacheRules} (h : c.Tracked) {seen : Record}
    (ht : (c.refresh rules now seen).2 = .wait t) :
    t ∈ (c.refresh rules now seen).1.flights.map Prod.fst := by
  have hr : ((c.touch seen.issuer).request rules.policy now seen.issuer (.keyMiss seen.generation)).2 =
      .wait t → _ := (h.touch seen.issuer).request_wait
  rw [refresh] at ht ⊢
  split at ht
  · rename_i c' u he
    rw [he] at hr
    obtain rfl := Reply.wait.inj ht
    exact hr rfl
  · cases ht

end Cache

theorem Run.tracked_after {rules : GateRules} {s : Run} (h : s.gate.cache.Tracked) (l : List Action) :
    (after rules s l).gate.cache.Tracked :=
  cache_invariant (fun _ _ _ _ hc h => h.change hc) (fun _ _ _ _ ht h => h.land ht _) h l

end BearerGate
