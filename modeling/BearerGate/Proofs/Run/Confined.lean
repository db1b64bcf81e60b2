import BearerGate.Proofs.Gate.Frame
import BearerGate.Proofs.Run.Returned
import BearerGate.Proofs.Run.Trace
import BearerGate.Proofs.Trust.Accepted

namespace BearerGate

open Cache

namespace Gate

variable {rules : GateRules} {now : Millis} {unix : Int} {g : Gate}

theorem nodup_engine (h : (g.engines.map Prod.fst).Nodup) (claimed : Text) :
    ((g.engine rules claimed).1.engines.map Prod.fst).Nodup := by
  rw [engine]
  split
  · exact h
  · split
    · exact h
    · rename_i i _ hnone
      rw [List.map_append, List.map_singleton, ← List.concat_eq_append]
      refine h.concat fun hm => ?_
      obtain ⟨x, hx, he⟩ := List.mem_map.mp hm
      have hne := List.lookup_eq_none_iff.mp hnone x hx
      simp [he] at hne

theorem nodup_start (h : (g.engines.map Prod.fst).Nodup) (r : Request) :
    ((g.start rules now unix r).1.engines.map Prod.fst).Nodup := by
  cases r with
  | get url | refresh seen =>
      rw [start, ofLookup_engines]
      exact h
  | sweep horizon order =>
      rw [start, ofSweep_engines]
      exact h
  | verify token | authenticate token =>
      rw [start, ofProgress_engines]
      rcases verify_engines rules now unix token g with he | ⟨claimed, he⟩
      · rw [he]
        exact h
      · rw [he]
        exact nodup_engine h claimed
  | evict url => exact h.sublist (List.filter_sublist.map Prod.fst)
  | forget url => exact h

end Gate

theorem Cache.outcome_keys {p : CachePolicy} {now : Millis} {i : Text} {generation : Nat}
    {result : Except FetchFault Document} {r : Record} (h : outcome p now i generation result = .ok r) :
    r.keys ≠ [] := by
  obtain ⟨d, rfl, -⟩ := outcome_ok h
  rw [outcome] at h
  obtain ⟨-, hkeys, rfl⟩ := Record.build_eq_ok_iff.mp h
  exact hkeys

namespace Run

variable {rules : GateRules} {s : Run} {l : List Action} {i : Text} {epoch : Int}

/-- Nothing is known of the issuer, and no sweep is going to visit it. -/
structure Untouched (i : Text) (s : Run) : Prop where
  cache : SameFor i {} s.gate.cache
  sweep : ∀ id t rest n, s.pending? id = some (.sweep t rest n) → ∀ d ∈ rest, d.issuer ≠ i

theorem Untouched.slot? (h : s.Untouched i) : s.gate.cache.slot? i = none := h.cache.slot?

theorem Untouched.inFlight (h : s.Untouched i) {t : Ticket} (ht : s.InFlight t) : t.issuer ≠ i := by
  intro hi
  obtain ⟨f, hf, rfl⟩ := List.mem_map.mp ht
  have hm : f ∈ s.gate.cache.flights.filter (·.1.issuer = i) := List.mem_filter.mpr ⟨hf, by simpa using hi⟩
  rw [h.cache.flights] at hm
  cases hm

theorem Untouched.outcome? (h : s.Untouched i) {t : Ticket} {o : Outcome}
    (ho : s.gate.cache.outcome? t = some o) : t.issuer ≠ i := by
  intro hi
  rw [h.cache.outcome? t hi] at ho
  cases ho

theorem Untouched.step {Q : Text → Outcome → Prop} (h : s.Untouched i) (hl : Gate.Leaves rules Q i)
    (hc : s.gate.cache.Holds Q) {a : Action} (hseen : ∀ seen, a = .call (.refresh seen) → seen.issuer ≠ i) :
    (s.step rules a).Untouched i where
  cache := by
    cases a with
    | pass d => exact h.cache
    | call r => exact h.cache.trans (hl.start hc h.slot? fun seen hr => hseen seen (hr ▸ rfl))
    | land t result =>
        by_cases ht : s.InFlight t
        · rw [step_land ht]
          exact h.cache.trans (sameFor_land (h.inFlight ht) _ _)
        · rw [step_land_of_not ht]
          exact h.cache
    | resume id =>
        rcases resume_cases rules s id with ⟨p, o, hp, ho⟩ | he
        · rw [step_resume hp ho]
          refine h.cache.trans ?_
          cases p with
          | get t => exact sameFor_finishGet i _ _ _
          | refresh t => exact .refl i _
          | sweep t rest n =>
              rw [Gate.proceed, Gate.ofSweep_cache]
              exact sameFor_resumeSweep (h.sweep id t rest n hp) _ _ _
          | attempt b counted =>
              rw [Gate.proceed, Gate.ofProgress_cache]
              exact hl.resume hc (hc.outcome? ho) (h.outcome? ho)
        · rw [he]
          exact h.cache
  sweep id t rest n hp d hd := by
    rcases calls_step_cases (pending?_eq_some_iff.mp hp) with hold | ⟨r, rfl, -, hk⟩ | ⟨p, o, rfl, hq, ho, hk⟩
    · exact h.sweep id t rest n (pending?_eq_some_iff.mpr hold) d hd
    · obtain ⟨horizon, order, -, hs⟩ := Gate.start_sweep hk.symm
      intro he
      exact slot?_of_mem_due (Gate.mem_of_mem_arrange (mem_of_sweep_wait hs hd)) (he ▸ h.slot?)
    · obtain ⟨u, due, m, rfl, hrest⟩ := Gate.proceed_sweep hk.symm
      exact h.sweep id u due m hq d (hrest d hd)

/-- Every record that a refresh is asked for has been given away before. -/
def RefreshesReturned (rules : GateRules) (s : Run) (l : List Action) : Prop :=
  ∀ l₁ seen l₂, l = l₁ ++ .call (.refresh seen) :: l₂ → Returned rules s l₁ seen

theorem RefreshesReturned.of_append {l' : List Action} (h : RefreshesReturned rules s (l ++ l')) :
    RefreshesReturned rules s l := by
  rintro l₁ seen l₂ rfl
  exact h l₁ seen (l₂ ++ l') (by simp)

theorem RefreshesReturned.concat (h : RefreshesReturned rules s l) {a : Action}
    (ha : ∀ seen, a = .call (.refresh seen) → Returned rules s l seen) :
    RefreshesReturned rules s (l ++ [a]) := by
  intro l₁ seen l₂ hl
  rcases List.eq_nil_or_concat l₂ with rfl | ⟨l₂, b, rfl⟩
  · obtain ⟨rfl, hb⟩ := List.append_inj' hl rfl
    exact ha seen (List.singleton_inj.mp hb)
  · have hsplit : l ++ [a] = (l₁ ++ .call (.refresh seen) :: l₂) ++ [b] := by simpa using hl
    exact h l₁ seen l₂ (List.append_inj' hsplit rfl).1

theorem untouched_after (hl : RefreshesReturned rules { epoch := epoch } l) (hi : ¬rules.trust.Accepts i)
    {l₁ : List Action} (hp : l₁ <+: l) : (after rules { epoch := epoch } l₁).Untouched i := by
  induction l using List.reverseRecOn generalizing l₁ with
  | nil =>
      obtain rfl := List.prefix_nil.mp hp
      exact ⟨.refl i _, fun id t rest n h => nomatch h⟩
  | append_singleton l a ih =>
      rcases List.prefix_concat_iff.mp hp with rfl | hp
      · have hleaves : Gate.Leaves rules (Landed rules { epoch := epoch } l) i :=
          ⟨fun url k hk he => hi ⟨url, k, hk, he⟩, fun j r hr => hr.issuer⟩
        rw [after_concat]
        apply (ih hl.of_append (List.prefix_refl l)).step hleaves (sound_after rules epoch l).cache
        rintro seen rfl
        -- The record came with a fetch, and no fetch is ever under way for the issuer.
        obtain ⟨t, ht, u, result, v, rfl, hf, -⟩ := (hl l seen [] rfl).landed
        rw [← ht]
        exact (ih hl.of_append (List.prefix_append u _)).inFlight hf
      · exact ih hl.of_append hp

theorem nodup_slots_after (rules : GateRules) (epoch : Int) (l : List Action) :
    ((after rules { epoch := epoch } l).gate.cache.slots.map Prod.fst).Nodup :=
  cache_invariant (s := { epoch := epoch }) (P := fun c => (c.slots.map Prod.fst).Nodup)
    (fun _ _ _ _ hc h => by
      cases hc with
      | count => exact h
      | touch | depart | evict => exact Assoc.nodup_keys_set _ _ h)
    (fun _ _ _ _ _ h => Assoc.nodup_keys_set _ _ h) .nil l

theorem nodup_engines_after (rules : GateRules) (epoch : Int) (l : List Action) :
    ((after rules { epoch := epoch } l).gate.engines.map Prod.fst).Nodup := by
  induction l using List.reverseRecOn with
  | nil => exact .nil
  | append_singleton l a ih =>
      rw [after_concat]
      cases a with
      | call r => exact Gate.nodup_start ih r
      | pass | land | resume =>
          rw [engines_step rfl]
          exact ih

/-- What is kept is kept under canonical URLs of accepted issuers, and there is no more of it than such
URLs. -/
structure Confined (rules : GateRules) (s : Run) : Prop where
  slot : ∀ x ∈ s.gate.cache.slots, rules.trust.Accepts x.1
  engine : ∀ x ∈ s.gate.engines, x.2.url = x.1 ∧ ∃ claimed, rules.trust.resolve? claimed = some x.2
  record : ∀ i r, s.gate.cache.record? i = some r → r.issuer = i ∧ r.metadata.issuer = i ∧ r.keys ≠ []
  slots_le : s.gate.cache.slots.length ≤ rules.trust.size
  engines_le : s.gate.engines.length ≤ rules.trust.size

/-- Whatever tokens and URLs are presented, the gate fetches from accepted issuers only, under their canonical
URLs, and what it keeps is confined to them. -/
theorem confined (rules : GateRules) (epoch : Int) (l : List Action)
    (hl : RefreshesReturned rules { epoch := epoch } l) :
    (∀ x ∈ starts rules { epoch := epoch } l, rules.trust.Accepts x.1.issuer) ∧
      Confined rules (after rules { epoch := epoch } l) := by
  have hslot : ∀ x ∈ (after rules { epoch := epoch } l).gate.cache.slots, rules.trust.Accepts x.1 := by
    intro x hx
    by_contra hi
    have hnone := (untouched_after hl hi (List.prefix_refl l)).slot?
    have hne := List.lookup_eq_none_iff.mp hnone x hx
    simp at hne
  have hengine := (sound_after rules epoch l).engines
  constructor
  · intro x hx
    obtain ⟨l₁, a, l₂, rfl, hstart⟩ := mem_trace.mp hx
    by_contra hi
    have hprefix : l₁ ++ [a] <+: l₁ ++ a :: l₂ := ⟨l₂, by simp⟩
    have hu := untouched_after hl hi hprefix
    rw [after_concat] at hu
    exact hu.inFlight (List.mem_map_of_mem (List.mem_of_mem_filter hstart)) rfl
  · refine ⟨hslot, hengine, fun i r hr => ?_, ?_, ?_⟩
    · obtain ⟨t, rfl, l₁, result, l₂, -, -, ho⟩ := (sound_after rules epoch l).cache.record? hr
      obtain ⟨d, -, hd⟩ := outcome_ok ho.symm
      exact ⟨hd.issuer, hd.metadata ▸ hd.described, outcome_keys ho.symm⟩
    · rw [← List.length_map Prod.fst]
      apply TrustPolicy.length_le_size (nodup_slots_after rules epoch l)
      intro url hurl
      obtain ⟨x, hx, rfl⟩ := List.mem_map.mp hurl
      exact hslot x hx
    · rw [← List.length_map Prod.fst]
      apply TrustPolicy.length_le_size (nodup_engines_after rules epoch l)
      intro url hurl
      obtain ⟨x, hx, rfl⟩ := List.mem_map.mp hurl
      obtain ⟨hurl, claimed, hclaimed⟩ := hengine x hx
      exact ⟨claimed, x.2, hclaimed, hurl⟩

def wideRules : GateRules :=
  { abcRules with
    trust := .ofSettings
      { abcSettings with realms := some ⟨"https://idp.example/realms/", [("a", "u")]⟩ } }

def lookups : List Action :=
  [.call (.get "HTTPS://IDP.example/abc/"), .land ⟨"https://idp.example/abc", 0⟩ (.ok abcDocument), .resume 0,
    .call (.verify abcToken), .call (.get "https://IDP.example/realms/a//"),
    .call (.get "https://idp.example/realms/b"), .call (.evict "https://other.example")]

theorem refreshesReturned_lookups :
    RefreshesReturned wideRules { epoch := 0 } (lookups ++ [.call (.refresh abcRecord)]) := by
  have hresult : (after wideRules { epoch := 0 } (lookups.take 3)).result? 0 = some (.record (.ok abcRecord)) := by
    decide +kernel
  have hnone : RefreshesReturned wideRules { epoch := 0 } lookups := by
    intro l₁ seen l₂ hl
    have hm : Action.call (.refresh seen) ∈ lookups := by simp [hl]
    simp [lookups] at hm
  apply hnone.concat
  rintro seen hseen
  obtain rfl : abcRecord = seen := by simpa using hseen
  exact ⟨lookups.take 3, List.take_prefix 3 lookups, .inl ⟨0, hresult⟩⟩

theorem confined_lookups :
    ((after wideRules { epoch := 0 } (lookups ++ [.call (.refresh abcRecord)])).gate.cache.slots.length,
        (after wideRules { epoch := 0 } (lookups ++ [.call (.refresh abcRecord)])).gate.engines.length,
        wideRules.trust.size) = (2, 1, 2) ∧
      Confined wideRules (after wideRules { epoch := 0 } (lookups ++ [.call (.refresh abcRecord)])) := by
  refine ⟨by decide +kernel, (confined wideRules 0 _ ?_).2⟩
  exact refreshesReturned_lookups

end Run

end BearerGate
