import BearerGate.Cache.Call
import Mathlib.Logic.Relation

namespace BearerGate

def Reply.map {α β : Type} (g : α → β) : Reply α → Reply β
  | .done a => .done (g a)
  | .wait t => .wait t

namespace Cache

open Relation

theorem slot?_setSlot_self (c : Cache) (i : Text) (s : Slot) : (c.setSlot i s).slot? i = some s :=
  Assoc.lookup_set_self i s c.slots

theorem slot?_setSlot_ne (c : Cache) {i j : Text} (h : j ≠ i) (s : Slot) :
    (c.setSlot i s).slot? j = c.slot? j :=
  Assoc.lookup_set_ne h s c.slots

@[simp] theorem slot_setSlot_self (c : Cache) (i : Text) (s : Slot) : (c.setSlot i s).slot i = s := by
  rw [slot, slot?_setSlot_self, Option.getD_some]

theorem slot_setSlot_ne (c : Cache) {i j : Text} (h : j ≠ i) (s : Slot) :
    (c.setSlot i s).slot j = c.slot j := by
  rw [slot, slot?_setSlot_ne c h, slot]

theorem slot_setSlot (c : Cache) (i j : Text) (s : Slot) :
    (c.setSlot i s).slot j = if j = i then s else c.slot j := by
  split
  · rename_i h
    rw [h, slot_setSlot_self]
  · rename_i h
    exact slot_setSlot_ne c h s

@[simp] theorem slot_touch (c : Cache) (i j : Text) : (c.touch i).slot j = c.slot j := by
  rw [touch, slot_setSlot]
  split
  · rename_i h
    rw [h]
  · rfl

def depart (now : Millis) (i : Text) (w : Wanted) (c : Cache) : Cache :=
  { c.setSlot i ((c.slot i).depart now w) with flights := c.flights ++ [(⟨i, (c.slot i).started⟩, now)] }

/-- What a request comes to: it joins, it is settled by what the slot holds, or a fetch starts. -/
theorem request_cases (p : CachePolicy) (now : Millis) (i : Text) (w : Wanted) (c : Cache) :
    (∃ n, (c.slot i).flight = some n ∧ c.request p now i w = (c, .wait ⟨i, n⟩)) ∨
      (c.slot i).flight = none ∧
        ((∃ o, (c.slot i).settled? p now w = some o ∧ c.request p now i w = (c, .done o)) ∨
          (c.slot i).settled? p now w = none ∧
            c.request p now i w = (c.depart now i w, .wait ⟨i, (c.slot i).started⟩)) := by
  cases hf : (c.slot i).flight with
  | some n => exact .inl ⟨n, rfl, by simp only [request, hf]⟩
  | none =>
      refine .inr ⟨rfl, ?_⟩
      cases hs : (c.slot i).settled? p now w with
      | some o => exact .inl ⟨o, rfl, by simp only [request, hf, hs]⟩
      | none => exact .inr ⟨rfl, by simp only [request, hf, hs, depart]⟩

theorem request_wait {p : CachePolicy} {now : Millis} {i : Text} {w : Wanted} {c c' : Cache} {t : Ticket}
    (h : c.request p now i w = (c', .wait t)) : t.issuer = i := by
  rcases request_cases p now i w c with ⟨n, -, hr⟩ | ⟨-, ⟨o, -, hr⟩ | ⟨-, hr⟩⟩
  · cases hr.symm.trans h
    rfl
  · cases hr.symm.trans h
  · cases hr.symm.trans h
    rfl

theorem request_done {p : CachePolicy} {now : Millis} {i : Text} {w : Wanted} {c c' : Cache} {o : Outcome}
    (h : c.request p now i w = (c', .done o)) : c' = c ∧ (c.slot i).settled? p now w = some o := by
  rcases request_cases p now i w c with ⟨n, -, hr⟩ | ⟨-, ⟨o', ho, hr⟩ | ⟨-, hr⟩⟩
  · cases hr.symm.trans h
  · cases hr.symm.trans h
    exact ⟨rfl, ho⟩
  · cases hr.symm.trans h

section Finish

variable {now : Millis} {i : Text} {f : FetchFault} {c : Cache} {r : Record}

theorem finishGet_usable (hr : c.record? i = some r) (hu : r.isUsable now) :
    (c.finishGet now i (.error f)).2 = .ok r := by
  simp only [finishGet, hr, Option.filter_some, hu, if_true]

theorem finishGet_error (h : ∀ r, c.record? i = some r → ¬r.isUsable now) :
    c.finishGet now i (.error f) = (c, .error (.unreachable f)) := by
  have hnone : (c.record? i).filter (·.isUsable now) = none := by
    rw [Option.filter_eq_none_iff]
    exact h
  simp only [finishGet, hnone]

theorem finishGet_cases (now : Millis) (i : Text) (f : FetchFault) (c : Cache) :
    (∃ r, c.record? i = some r ∧ r.isUsable now = true ∧ (c.finishGet now i (.error f)).2 = .ok r) ∨
      (∀ r, c.record? i = some r → r.isUsable now = false) ∧
        c.finishGet now i (.error f) = (c, .error (.unreachable f)) := by
  by_cases hu : ∃ r, c.record? i = some r ∧ r.isUsable now = true
  · obtain ⟨r, hr, hu⟩ := hu
    exact .inl ⟨r, hr, hu, finishGet_usable hr hu⟩
  · have hnone : ∀ r, c.record? i = some r → ¬r.isUsable now = true := fun r hr hur => hu ⟨r, hr, hur⟩
    exact .inr ⟨fun r hr => Bool.eq_false_iff.mpr (hnone r hr), finishGet_error hnone⟩

end Finish

theorem get_untrusted {now : Millis} {c : Cache} (rules : CacheRules) {url : Text}
    (hi : rules.trust.resolve? url = none) : c.get rules now url = (c, .done (.error (.untrusted url))) := by
  simp only [get, hi]

/-- What a lookup comes to: it is answered with what is at hand, or it asks for a fetch and waits, or it asks
and is settled. -/
theorem get_cases (rules : CacheRules) (now : Millis) (c : Cache) {url : Text} {j : TrustedIssuer}
    (hj : rules.trust.resolve? url = some j) :
    (∃ r count, atHand? now (c.slot j.url) = some (r, count) ∧
        c.get rules now url = ({ c.touch j.url with tally := count c.tally }, .done (.ok r))) ∨
      atHand? now (c.slot j.url) = none ∧
        ((∃ c' t, (c.touch j.url).request rules.policy now j.url .fresh = (c', .wait t) ∧
            c.get rules now url = (c', .wait t)) ∨
          ∃ c' o, (c.touch j.url).request rules.policy now j.url .fresh = (c', .done o) ∧
            c.get rules now url = ((c'.finishGet now j.url o).1, .done (c'.finishGet now j.url o).2)) := by
  cases ha : atHand? now (c.slot j.url) with
  | some x =>
      obtain ⟨r, count⟩ := x
      refine .inl ⟨r, count, rfl, ?_⟩
      simp only [get, hj, slot_touch, ha]
      rfl
  | none =>
      refine .inr ⟨rfl, ?_⟩
      cases hr : (c.touch j.url).request rules.policy now j.url .fresh with
      | mk c' reply =>
          cases reply with
          | wait t => exact .inl ⟨c', t, rfl, by simp only [get, hj, slot_touch, ha, hr]⟩
          | done o => exact .inr ⟨c', o, rfl, by simp only [get, hj, slot_touch, ha, hr]⟩

def finishRequest (now : Millis) (i : Text) : Cache × Reply Outcome → Cache × Reply (Except AuthFault Record)
  | (c, .wait t) => (c, .wait t)
  | (c, .done o) => ((c.finishGet now i o).1, .done (c.finishGet now i o).2)

theorem get_eq (rules : CacheRules) (now : Millis) {c : Cache} {url : Text} {j : TrustedIssuer}
    (hj : rules.trust.resolve? url = some j) (ha : atHand? now (c.slot j.url) = none) :
    c.get rules now url = finishRequest now j.url ((c.touch j.url).request rules.policy now j.url .fresh) := by
  rcases get_cases rules now c hj with ⟨r, count, hsome, -⟩ | ⟨-, ⟨c', t, he, hget⟩ | ⟨c', o, he, hget⟩⟩
  · cases ha.symm.trans hsome
  · rw [hget, he]
    rfl
  · rw [hget, he]
    rfl

theorem refresh_eq (rules : CacheRules) (now : Millis) (seen : Record) (c : Cache) :
    c.refresh rules now seen =
      Prod.map id (Reply.map finishRefresh)
        ((c.touch seen.issuer).request rules.policy now seen.issuer (.keyMiss seen.generation)) := by
  rw [Cache.refresh]
  split
  · rename_i he
    rw [he]
    rfl
  · rename_i he
    rw [he]
    rfl

/-- One change that a call makes to the cache, where `E` says which issuers may be evicted. Only a landing
fetch changes more. -/
inductive Change (E : Text → Prop) (p : CachePolicy) (now : Millis) : Cache → Cache → Prop
  | touch (c : Cache) (i : Text) : Change E p now c (c.touch i)
  | count (c : Cache) (t : Tally) : Change E p now c { c with tally := t }
  | depart (c : Cache) (i : Text) (w : Wanted) (hf : (c.slot i).flight = none)
      (hs : (c.slot i).settled? p now w = none) : Change E p now c (c.depart now i w)
  | evict (c : Cache) (i : Text) (hi : E i) : Change E p now c (c.setSlot i (c.slot i).evict)

abbrev Changes (E : Text → Prop) (p : CachePolicy) (now : Millis) : Cache → Cache → Prop :=
  ReflTransGen (Change E p now)

theorem Changes.preserve {E : Text → Prop} {p : CachePolicy} {now : Millis} {P : Cache → Prop} {c c' : Cache}
    (h : Changes E p now c c') (hstep : ∀ c c', Change E p now c c' → P c → P c') (hc : P c) : P c' := by
  induction h with
  | refl => exact hc
  | tail _ h ih => exact hstep _ _ h ih

abbrev Asks : CachePolicy → Millis → Cache → Cache → Prop := Changes fun _ => False

section Calls

variable (p : CachePolicy) (rules : CacheRules) (now : Millis)

theorem request_asks (i : Text) (w : Wanted) (c : Cache) : Asks p now c (c.request p now i w).1 := by
  rcases request_cases p now i w c with ⟨n, -, h⟩ | ⟨hf, ⟨o, -, h⟩ | ⟨hs, h⟩⟩
  · rw [h]
  · rw [h]
  · rw [h]
    exact .single (.depart c i w hf hs)

theorem finishGet_asks (i : Text) (o : Outcome) (c : Cache) :
    Asks p now c (c.finishGet now i o).1 := by
  simp only [finishGet]
  split
  · exact .single (.count c _)
  · split
    · exact .single (.count c _)
    · exact .refl

theorem get_asks (url : Text) (c : Cache) : Asks rules.policy now c (c.get rules now url).1 := by
  cases hj : rules.trust.resolve? url with
  | none => rw [get_untrusted rules hj]
  | some j =>
      have htouch : Asks rules.policy now c (c.touch j.url) := .single (.touch c _)
      have hr := htouch.trans (request_asks rules.policy now j.url .fresh (c.touch j.url))
      rcases get_cases rules now c hj with ⟨r, count, -, hget⟩ | ⟨-, ⟨c', t, he, hget⟩ | ⟨c', o, he, hget⟩⟩
      · rw [hget]
        exact htouch.tail (.count _ _)
      · rw [he] at hr
        rw [hget]
        exact hr
      · rw [he] at hr
        rw [hget]
        exact hr.trans (finishGet_asks _ _ _ _ _)

theorem refresh_asks (seen : Record) (c : Cache) :
    Asks rules.policy now c (c.refresh rules now seen).1 := by
  rw [refresh_eq]
  exact .trans (.single (.touch c _)) (request_asks _ _ _ _ _)

theorem sweep_asks (due : List Due) (n : Nat) (c : Cache) :
    Asks rules.policy now c (c.sweep rules now due n).1 := by
  induction due generalizing n c with
  | nil => exact .refl
  | cons d rest ih =>
      have h := request_asks rules.policy now d.issuer (.newer d.generation) c
      rw [sweep]
      split
      · rename_i he
        rwa [he] at h
      · rename_i he
        rw [he] at h
        exact h.trans (ih _ _)
      · rename_i he
        rw [he] at h
        exact h.trans (ih _ _)

theorem resumeSweep_asks (o : Outcome) (rest : List Due) (n : Nat) (c : Cache) :
    Asks rules.policy now c (c.resumeSweep rules now o rest n).1 := by
  cases o <;> exact sweep_asks _ _ _ _ _

theorem evict_changes (trust : TrustPolicy) (url : Text) (c : Cache) :
    Changes (canonical trust url = ·) p now c (c.evict trust url).1 := by
  unfold evict
  dsimp only
  split
  · exact .refl
  · rename_i s hs
    have he : c.slot (canonical trust url) = s := by rw [slot, hs, Option.getD_some]
    rw [← he]
    exact .single (.evict c _ rfl)

end Calls

end Cache

end BearerGate
