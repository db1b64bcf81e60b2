import BearerGate.Proofs.Cache.Flight

namespace BearerGate.Cache

variable {i j : Text} {c c' c'' : Cache}

/-- The two caches hold the same for the issuer: slot, fetches under way and outcomes. -/
structure SameFor (i : Text) (c c' : Cache) : Prop where
  slot? : c'.slot? i = c.slot? i
  flights : c'.flights.filter (·.1.issuer = i) = c.flights.filter (·.1.issuer = i)
  outcome? : ∀ t, t.issuer = i → c'.outcome? t = c.outcome? t

theorem SameFor.refl (i : Text) (c : Cache) : SameFor i c c := ⟨rfl, rfl, fun _ _ => rfl⟩

theorem SameFor.trans (h : SameFor i c c') (h' : SameFor i c' c'') : SameFor i c c'' where
  slot? := h'.slot?.trans h.slot?
  flights := h'.flights.trans h.flights
  outcome? t ht := (h'.outcome? t ht).trans (h.outcome? t ht)

theorem SameFor.count (h : SameFor i c c') (t : Tally) : SameFor i c { c' with tally := t } :=
  ⟨h.slot?, h.flights, h.outcome?⟩

theorem sameFor_setSlot (h : j ≠ i) (s : Slot) : SameFor i c (c.setSlot j s) :=
  ⟨slot?_setSlot_ne c h.symm s, rfl, fun _ _ => rfl⟩

variable {rules : CacheRules} {now : Millis}

theorem sameFor_depart (h : j ≠ i) (w : Wanted) : SameFor i c (c.depart now j w) where
  slot? := (sameFor_setSlot h _).slot?
  flights := by
    rw [depart, List.filter_append]
    simp [h]
  outcome? _ _ := rfl

theorem sameFor_request (h : j ≠ i) (p : CachePolicy) (now : Millis) (w : Wanted) :
    SameFor i c (c.request p now j w).1 := by
  rcases request_cases p now j w c with ⟨n, -, hr⟩ | ⟨-, ⟨o, -, hr⟩ | ⟨-, hr⟩⟩
  · rw [hr]
    exact .refl i c
  · rw [hr]
    exact .refl i c
  · rw [hr]
    exact sameFor_depart h w

theorem sameFor_finishGet (i j : Text) (o : Outcome) (c : Cache) :
    SameFor i c (c.finishGet now j o).1 := by
  cases o with
  | ok r => exact (SameFor.refl i c).count _
  | error f =>
      simp only [finishGet]
      split
      · exact (SameFor.refl i c).count _
      · exact .refl i c

theorem sameFor_get {url : Text} (h : ∀ k, rules.trust.resolve? url = some k → k.url ≠ i) :
    SameFor i c (c.get rules now url).1 := by
  cases hk : rules.trust.resolve? url with
  | none =>
      rw [get_untrusted rules hk]
      exact .refl i c
  | some k =>
      have htouch : SameFor i c (c.touch k.url) := sameFor_setSlot (h k hk) _
      have hr := htouch.trans (sameFor_request (h k hk) rules.policy now .fresh)
      rcases get_cases rules now c hk with ⟨r, count, -, hget⟩ | ⟨-, ⟨c', t, he, hget⟩ | ⟨c', o, he, hget⟩⟩
      · rw [hget]
        exact htouch.count _
      · rw [he] at hr
        rw [hget]
        exact hr
      · rw [he] at hr
        rw [hget]
        exact hr.trans (sameFor_finishGet i k.url o c')

theorem sameFor_refresh (rules : CacheRules) (now : Millis) {seen : Record} (h : seen.issuer ≠ i) :
    SameFor i c (c.refresh rules now seen).1 := by
  have htouch : SameFor i c (c.touch seen.issuer) := sameFor_setSlot h _
  rw [refresh_eq]
  exact htouch.trans (sameFor_request h rules.policy now (.keyMiss seen.generation))

theorem sameFor_sweep {due : List Due} (h : ∀ d ∈ due, d.issuer ≠ i) (n : Nat) (c : Cache) :
    SameFor i c (c.sweep rules now due n).1 := by
  induction due generalizing n c with
  | nil => exact .refl i c
  | cons d rest ih =>
      have hrest : ∀ e ∈ rest, e.issuer ≠ i := fun e he => h e (List.mem_cons_of_mem d he)
      have hr : SameFor i c (c.request rules.policy now d.issuer (.newer d.generation)).1 :=
        sameFor_request (h d List.mem_cons_self) _ _ _
      rw [sweep]
      split
      · rename_i he
        rwa [he] at hr
      · rename_i he
        rw [he] at hr
        exact hr.trans (ih hrest _ _)
      · rename_i he
        rw [he] at hr
        exact hr.trans (ih hrest _ _)

theorem sameFor_resumeSweep {rest : List Due} (h : ∀ d ∈ rest, d.issuer ≠ i) (o : Outcome) (n : Nat)
    (c : Cache) : SameFor i c (c.resumeSweep rules now o rest n).1 := by
  cases o <;> exact sameFor_sweep h _ _

theorem sameFor_evict {trust : TrustPolicy} {url : Text} (h : canonical trust url ≠ i) :
    SameFor i c (c.evict trust url).1 := by
  unfold evict
  dsimp only
  split
  · exact .refl i c
  · exact sameFor_setSlot h _

theorem sameFor_land {t : Ticket} (h : t.issuer ≠ i) (p : CachePolicy) (result : Except FetchFault Document) :
    SameFor i c (c.land p now t result) where
  slot? := slot?_setSlot_ne c h.symm _
  flights := by
    simp only [land, List.filter_filter]
    apply List.filter_congr
    intro f _
    by_cases hf : f.1.issuer = i
    · have hne : f.1 ≠ t := fun he => h (he ▸ hf)
      simp [hf, hne]
    · simp [hf]
  outcome? u hu := by
    have hne : u ≠ t := fun he => h (he ▸ hu)
    simp only [Cache.outcome?, land, List.lookup_append, Assoc.lookup_cons_ne hne, List.lookup_nil,
      Option.or_none]

theorem evict_of_none {trust : TrustPolicy} {url : Text} (h : c.slot? (canonical trust url) = none) :
    c.evict trust url = (c, false) := by
  simp only [evict, h]

theorem slot?_of_mem_due {deadline : Millis} {d : Due} (h : d ∈ c.due deadline) : c.slot? d.issuer ≠ none := by
  obtain ⟨x, hx, hd⟩ := List.mem_filterMap.mp h
  obtain ⟨j, s⟩ := x
  have hj : j = d.issuer := by
    dsimp only at hd
    split at hd
    · split at hd
      · exact congrArg Due.issuer (Option.some.inj hd)
      · cases hd
    · cases hd
  intro hnone
  have hne := List.lookup_eq_none_iff.mp hnone _ hx
  rw [hj] at hne
  simp at hne

theorem mem_of_sweep_wait {due rest : List Due} {t : Ticket} {n k : Nat} {d : Due}
    (h : (c.sweep rules now due n).2 = .wait t rest k) (hd : d ∈ rest) : d ∈ due := by
  induction due generalizing n with
  | nil => cases h
  | cons e due ih =>
      rcases request_cases rules.policy now e.issuer (.newer e.generation) c with
        ⟨m, -, hr⟩ | ⟨-, ⟨o, -, hr⟩ | ⟨-, hr⟩⟩
      · simp only [sweep, hr] at h
        cases h
        exact List.mem_cons_of_mem e hd
      · cases o with
        | ok r =>
            simp only [sweep, hr] at h
            exact List.mem_cons_of_mem e (ih h)
        | error f =>
            simp only [sweep, hr] at h
            exact List.mem_cons_of_mem e (ih h)
      · simp only [sweep, hr] at h
        cases h
        exact List.mem_cons_of_mem e hd

end BearerGate.Cache
