import BearerGate.Proofs.Cache.Holds
import BearerGate.Proofs.Key.Selected

namespace BearerGate

variable {p : CachePolicy} {now : Millis} {r : Record}

namespace Record

/-- The windows of a record begin when it is built, and usability outlasts freshness by the grace. -/
structure Windowed (p : CachePolicy) (now : Millis) (r : Record) : Prop where
  expires : now ≤ r.expiresAt
  usable : r.usableUntil = r.expiresAt + p.grace

theorem build_windowed {issuer : Text} {d : Document} {generation : Nat}
    (h : build issuer d p generation now = .ok r) : r.Windowed p now ∧ r.generation = generation := by
  obtain ⟨-, -, rfl⟩ := build_eq_ok_iff.mp h
  exact ⟨⟨Nat.le_add_right _ _, rfl⟩, rfl⟩

variable {built built' later : Millis} {r' : Record}

theorem Windowed.isUsable_of_isFresh (h : r.Windowed p built) (hf : r.isFresh now = true) :
    r.isUsable now = true := by
  simp only [isFresh, isUsable, decide_eq_true_eq] at hf ⊢
  rw [h.usable]
  exact Nat.lt_add_right _ hf

/-- A record that has expired is not usable for longer than one that is built afterwards. -/
theorem Windowed.isUsable_of_stale (h : r.Windowed p built) (h' : r'.Windowed p built')
    (hs : r.isFresh now = false) (hb : now ≤ built') (hu : r.isUsable later = true) :
    r'.isUsable later = true := by
  simp only [isFresh, isUsable, decide_eq_true_eq, decide_eq_false_iff_not] at hs hu ⊢
  rw [h.usable] at hu
  rw [h'.usable]
  have hle : r.expiresAt ≤ r'.expiresAt := Nat.le_trans (Nat.le_of_not_lt hs) (Nat.le_trans hb h'.expires)
  exact Nat.lt_of_lt_of_le hu (Nat.add_le_add_right hle _)

end Record

namespace Cache

variable {E : Text → Prop} {c c' : Cache} {s : Slot} {i : Text}

theorem outcome_windowed {result : Except FetchFault Document} {generation : Nat}
    (h : outcome p now i generation result = .ok r) :
    r.Windowed p now ∧ r.generation = generation + 1 ∧ drawn result = 1 := by
  obtain ⟨d, rfl, -⟩ := outcome_ok h
  obtain ⟨hw, hg⟩ := Record.build_windowed h
  exact ⟨hw, hg, rfl⟩

theorem Change.record? (h : Change E p now c c') (hi : ¬E i) : c'.record? i = c.record? i := by
  cases h with
  | touch j => rw [Cache.record?, slot_touch, Cache.record?]
  | count t => rfl
  | depart j w hf hs =>
      rw [Cache.record?, slot_depart, Cache.record?]
      split
      · rename_i hj
        rw [hj]
        rfl
      · rfl
  | evict j hj =>
      have hne : i ≠ j := fun he => hi (he ▸ hj)
      rw [Cache.record?, slot_setSlot_ne c hne, Cache.record?]

theorem Changes.record? (h : Changes E p now c c') (hi : ¬E i) : c'.record? i = c.record? i :=
  h.preserve (P := fun d => d.record? i = c.record? i) (fun _ _ hd he => (hd.record? hi).trans he) rfl

theorem Changes.generation (h : Changes E p now c c') : c'.generation = c.generation := by
  induction h with
  | refl => rfl
  | tail _ h ih =>
      rw [← ih]
      cases h <;> rfl

theorem record?_land (p : CachePolicy) (now : Millis) (t : Ticket) (result : Except FetchFault Document)
    (c : Cache) (i : Text) :
    (c.land p now t result).record? i = c.record? i ∨
      t.issuer = i ∧ ∃ r, outcome p now i c.generation result = .ok r ∧
        (c.land p now t result).record? i = some r := by
  rw [Cache.record?, slot_land]
  split
  · rename_i hi
    subst hi
    cases ho : outcome p now t.issuer c.generation result with
    | ok r => exact .inr ⟨rfl, r, rfl, rfl⟩
    | error f => exact .inl rfl
  · exact .inl rfl

theorem atHand?_of_isFresh (hr : s.record = some r) (hf : r.isFresh now = true) :
    atHand? now s = some (r, Tally.hit) := by
  simp only [atHand?, hr, hf, if_true]

theorem atHand?_usable {count : Tally → Tally} (h : atHand? now s = some (r, count)) :
    r.isFresh now = true ∨ r.isUsable now = true := by
  rw [atHand?] at h
  split at h
  · split at h
    · rename_i hf
      cases h
      exact .inl hf
    · split at h
      · rename_i hu
        cases h
        exact .inr (Bool.and_eq_true_iff.mp hu).1
      · cases h
  · cases h

theorem stale_of_atHand? (h : atHand? now s = none) (hr : s.record = some r) : r.isFresh now = false := by
  by_contra hf
  rw [Bool.not_eq_false] at hf
  rw [atHand?_of_isFresh hr hf] at h
  cases h

theorem settled?_fresh {o : Outcome} (ha : atHand? now s = none) (h : s.settled? p now .fresh = some o) :
    ∃ f, o = .error f ∧ s.pendingFault? now = some f ∧ ∀ r, s.record = some r → r.isUsable now = false := by
  have hfault (h : (s.pendingFault? now).map Except.error = some o) :
      ∃ f, o = .error f ∧ s.pendingFault? now = some f := by
    obtain ⟨f, hf, rfl⟩ := Option.map_eq_some_iff.mp h
    exact ⟨f, rfl, hf⟩
  cases hr : s.record with
  | none =>
      simp only [Slot.settled?, hr] at h
      obtain ⟨f, ho, hf⟩ := hfault h
      refine ⟨f, ho, hf, ?_⟩
      intro r hr
      cases hr
  | some r =>
      have hstale := stale_of_atHand? ha hr
      simp only [Slot.settled?, hr, Wanted.isMetBy, Wanted.isKeyMiss, hstale, Bool.false_and, Bool.or_self,
        Bool.false_eq_true, if_false] at h
      obtain ⟨f, ho, hf⟩ := hfault h
      refine ⟨f, ho, hf, fun r' hr' => ?_⟩
      obtain rfl := Option.some.inj hr'
      simp only [atHand?, hr, hstale, hf, Bool.false_eq_true, if_false, Option.isSome_some, Bool.and_true] at ha
      simpa using ha

/-- A lookup is answered with what is at hand; or it waits for a fetch of the issuer; or it fails, because a
failure pends and nothing that is left is usable. -/
theorem get_settles (rules : CacheRules) (now : Millis) (c : Cache) {url : Text} {j : TrustedIssuer}
    (hj : rules.trust.resolve? url = some j) :
    (∃ r count, atHand? now (c.slot j.url) = some (r, count) ∧
        c.get rules now url = ({ c.touch j.url with tally := count c.tally }, .done (.ok r))) ∨
      atHand? now (c.slot j.url) = none ∧
        ((∃ t, t.issuer = j.url ∧ (c.get rules now url).2 = .wait t) ∨
          ∃ f, (c.slot j.url).pendingFault? now = some f ∧
            (∀ r, c.record? j.url = some r → r.isUsable now = false) ∧
            c.get rules now url = (c.touch j.url, .done (.error (.unreachable f)))) := by
  rcases get_cases rules now c hj with hhand | ⟨ha, ⟨c', t, he, hget⟩ | ⟨c', o, he, hget⟩⟩
  · exact .inl hhand
  · exact .inr ⟨ha, .inl ⟨t, request_wait he, congrArg Prod.snd hget⟩⟩
  · obtain ⟨rfl, ho⟩ := request_done he
    rw [slot_touch] at ho
    obtain ⟨f, rfl, hf, hu⟩ := settled?_fresh ha ho
    have hnone : ∀ r, (c.touch j.url).record? j.url = some r → ¬r.isUsable now = true := by
      intro r hr
      rw [Cache.record?, slot_touch] at hr
      rw [hu r hr]
      exact Bool.false_ne_true
    refine .inr ⟨ha, .inr ⟨f, hf, hu, ?_⟩⟩
    rw [hget, finishGet_error hnone]

end Cache

end BearerGate
