import BearerGate.Proofs.Cache.Flight

namespace BearerGate.Cache

variable {Q Q' : Text → Outcome → Prop} {p : CachePolicy} {rules : CacheRules} {now : Millis} {c c' : Cache}

/-- All that the cache keeps of an issuer are outcomes of the given kind. -/
structure Holds (Q : Text → Outcome → Prop) (c : Cache) : Prop where
  record : ∀ i r, (c.slot i).record = some r → Q i (.ok r)
  failure : ∀ i x, (c.slot i).failure = some x → Q i (.error x.fault)
  landed : ∀ x ∈ c.landed, Q x.1.issuer x.2

theorem Holds.empty : Holds Q {} where
  record i r h := by simp [slot, slot?] at h
  failure i x h := by simp [slot, slot?] at h
  landed x h := nomatch h

theorem Holds.mono (h : c.Holds Q) (hQ : ∀ i o, Q i o → Q' i o) : c.Holds Q' where
  record i r hr := hQ i _ (h.record i r hr)
  failure i x hx := hQ i _ (h.failure i x hx)
  landed x hx := hQ _ _ (h.landed x hx)

theorem Holds.congr (h : c.Holds Q) (hl : c'.landed = c.landed)
    (hslot : ∀ i, ((c'.slot i).record = none ∨ (c'.slot i).record = (c.slot i).record) ∧
      ((c'.slot i).failure = none ∨ (c'.slot i).failure = (c.slot i).failure)) : c'.Holds Q where
  record i r hr := by
    rcases (hslot i).1 with he | he
    · rw [he] at hr
      cases hr
    · exact h.record i r (he ▸ hr)
  failure i x hx := by
    rcases (hslot i).2 with he | he
    · rw [he] at hx
      cases hx
    · exact h.failure i x (he ▸ hx)
  landed x hx := h.landed x (hl ▸ hx)

theorem Holds.change {E : Text → Prop} (h : c.Holds Q) (hc : Change E p now c c') : c'.Holds Q := by
  cases hc with
  | touch i => exact h.congr rfl fun j => by simp
  | count t => exact h.congr rfl fun j => ⟨.inr rfl, .inr rfl⟩
  | depart i w _ _ =>
      refine h.congr rfl fun j => ?_
      rw [slot_depart]
      split
      · rename_i hj
        rw [hj]
        exact ⟨.inr rfl, .inr rfl⟩
      · exact ⟨.inr rfl, .inr rfl⟩
  | evict i _ =>
      refine h.congr rfl fun j => ?_
      rw [slot_setSlot]
      split
      · exact ⟨.inl rfl, .inl rfl⟩
      · exact ⟨.inr rfl, .inr rfl⟩

theorem Holds.land (h : c.Holds Q) {t : Ticket} {result : Except FetchFault Document}
    (ho : Q t.issuer (outcome p now t.issuer c.generation result)) : (c.land p now t result).Holds Q where
  record i r hr := by
    rw [slot_land] at hr
    split at hr
    · rename_i hi
      rw [hi]
      cases hout : outcome p now t.issuer c.generation result with
      | ok r' =>
          rw [hout] at hr ho
          obtain rfl := Option.some.inj hr
          exact ho
      | error f =>
          rw [hout] at hr
          exact h.record _ r hr
    · exact h.record i r hr
  failure i x hx := by
    rw [slot_land] at hx
    split at hx
    · rename_i hi
      rw [hi]
      cases hout : outcome p now t.issuer c.generation result with
      | ok r =>
          rw [hout] at hx
          cases hx
      | error f =>
          rw [hout] at hx ho
          obtain rfl := Option.some.inj hx
          exact ho
    · exact h.failure i x hx
  landed x hx := by
    rcases List.mem_append.mp hx with hx | hx
    · exact h.landed x hx
    · obtain rfl := List.mem_singleton.mp hx
      exact ho

theorem Holds.outcome? (h : c.Holds Q) {t : Ticket} {o : Outcome} (ho : c.outcome? t = some o) :
    Q t.issuer o :=
  h.landed (t, o) (Assoc.mem_of_lookup ho)

theorem Holds.record? (h : c.Holds Q) {i : Text} {r : Record} (hr : c.record? i = some r) : Q i (.ok r) :=
  h.record i r hr

theorem Holds.settled? (h : c.Holds Q) {i : Text} {w : Wanted} {o : Outcome}
    (ho : (c.slot i).settled? p now w = some o) : Q i o := by
  have hfault {f : FetchFault} (hf : (c.slot i).pendingFault? now = some f) : Q i (.error f) := by
    rw [Slot.pendingFault?] at hf
    split at hf
    · rename_i x hx
      split at hf
      · obtain rfl := Option.some.inj hf
        exact h.failure i x hx
      · cases hf
    · cases hf
  rw [Slot.settled?] at ho
  split at ho
  · rename_i r hr
    split at ho
    · obtain rfl := Option.some.inj ho
      exact h.record i r hr
    · obtain ⟨f, hf, rfl⟩ := Option.map_eq_some_iff.mp ho
      exact hfault hf
  · obtain ⟨f, hf, rfl⟩ := Option.map_eq_some_iff.mp ho
    exact hfault hf

def Told (Q : Text → Outcome → Prop) (i : Text) : Except AuthFault Record → Prop
  | .ok r => Q i (.ok r)
  | .error f => ∃ g, f = .unreachable g ∧ Q i (.error g)

theorem finishRefresh_told {i : Text} {o : Outcome} (ho : Q i o) : Told Q i (finishRefresh o) := by
  cases o with
  | ok r => exact ho
  | error g => exact ⟨g, rfl, ho⟩

theorem Holds.finishGet (h : c.Holds Q) (now : Millis) {i : Text} {o : Outcome} (ho : Q i o) :
    Told Q i (c.finishGet now i o).2 := by
  cases o with
  | ok r => exact ho
  | error g =>
      simp only [Cache.finishGet]
      split
      · rename_i r hr
        exact h.record? (Option.filter_eq_some_iff.mp hr).1
      · exact ⟨g, rfl, ho⟩

theorem atHand?_record {s : Slot} {r : Record} {count : Tally → Tally}
    (h : atHand? now s = some (r, count)) : s.record = some r := by
  rw [atHand?] at h
  split at h
  · rename_i r' hr
    rw [hr]
    split at h
    · cases h
      rfl
    · split at h
      · cases h
        rfl
      · cases h
  · cases h

def Replied (Q : Text → Outcome → Prop) (i : Text) : Reply (Except AuthFault Record) → Prop
  | .done a => Told Q i a
  | .wait t => t.issuer = i

theorem Holds.request (h : c.Holds Q) (p : CachePolicy) (now : Millis) (i : Text) (w : Wanted) :
    match (c.request p now i w).2 with
    | .done o => Q i o
    | .wait t => t.issuer = i := by
  rcases request_cases p now i w c with ⟨n, -, hr⟩ | ⟨-, ⟨o, ho, hr⟩ | ⟨-, hr⟩⟩
  · simp only [hr]
  · simp only [hr]
    exact h.settled? ho
  · simp only [hr]

theorem Holds.changes {E : Text → Prop} (h : c.Holds Q) (hc : Changes E p now c c') : c'.Holds Q :=
  hc.preserve (fun _ _ hc h => h.change hc) h

theorem Holds.get (h : c.Holds Q) (rules : CacheRules) (now : Millis) {url : Text} {i : TrustedIssuer}
    (hi : rules.trust.resolve? url = some i) : Replied Q i.url (c.get rules now url).2 := by
  have htouch : (c.touch i.url).Holds Q := h.congr rfl fun j => by simp
  have hr := htouch.request rules.policy now i.url .fresh
  have hc := htouch.changes (request_asks rules.policy now i.url .fresh (c.touch i.url))
  rcases get_cases rules now c hi with ⟨r, count, ha, hget⟩ | ⟨-, ⟨c', t, he, hget⟩ | ⟨c', o, he, hget⟩⟩
  · rw [hget]
    exact h.record i.url r (atHand?_record ha)
  · rw [he] at hr
    rw [hget]
    exact hr
  · rw [he] at hr hc
    rw [hget]
    exact hc.finishGet now hr

theorem Holds.refresh (h : c.Holds Q) (rules : CacheRules) (now : Millis) (seen : Record) :
    Replied Q seen.issuer (c.refresh rules now seen).2 := by
  have htouch : (c.touch seen.issuer).Holds Q := h.congr rfl fun j => by simp
  have hr := htouch.request rules.policy now seen.issuer (.keyMiss seen.generation)
  rw [Cache.refresh]
  split
  · rename_i he
    rw [he] at hr
    exact hr
  · rename_i he
    rw [he] at hr
    exact finishRefresh_told hr

end BearerGate.Cache
