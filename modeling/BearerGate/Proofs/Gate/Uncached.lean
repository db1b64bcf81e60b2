import BearerGate.Proofs.Gate.Decided
import BearerGate.Proofs.Key.Selected

namespace BearerGate

/-- The outcomes that fetches of an issuer may have when the issuer always answers the same. -/
def Reports (rules : GateRules) (source : Text → Except FetchFault Document) (i : Text) (o : Outcome) :
    Prop :=
  ∃ generation now, o = Cache.outcome rules.policy now i generation (source i)

namespace Record

variable {r r' : Record} {url : Text} {d : Document} {t : Unverified}

theorem BuiltFrom.selectKey_congr (h : BuiltFrom url d r) (h' : BuiltFrom url d r') :
    r.selectKey t = r'.selectKey t := by
  simp only [selectKey, h.metadata, h.keys, h'.metadata, h'.keys]

theorem BuiltFrom.conclude_congr (h : BuiltFrom url d r) (h' : BuiltFrom url d r') (rules : GateRules)
    (unix : Int) (e : TrustedIssuer) (k : SigningKey) :
    Gate.conclude rules unix t e r k = Gate.conclude rules unix t e r' k := by
  simp only [Gate.conclude, h.issuer, h'.issuer]

theorem build_error_congr {p : CachePolicy} {generation generation' : Nat} {now now' : Millis}
    {f : FetchFault} (h : build url d p generation now = .error f) :
    build url d p generation' now' = .error f := by
  rw [build] at h ⊢
  split at h
  · rename_i hi
    rw [if_pos hi]
    exact h
  · rename_i hi
    rw [if_neg hi]
    split at h
    · exact h
    · cases h

end Record

namespace Reports

variable {rules : GateRules} {source : Text → Except FetchFault Document} {i : Text}

theorem error {f : FetchFault} (h : Reports rules source i (.error f)) (generation : Nat) (now : Millis) :
    Cache.outcome rules.policy now i generation (source i) = .error f := by
  obtain ⟨g, n, h⟩ := h
  cases hs : source i with
  | error f' =>
      rw [hs] at h
      exact h.symm
  | ok d =>
      rw [hs] at h
      exact Record.build_error_congr h.symm

theorem ok {r : Record} (h : Reports rules source i (.ok r)) (generation : Nat) (now : Millis) :
    ∃ d r', Cache.outcome rules.policy now i generation (source i) = .ok r' ∧
      Record.BuiltFrom i d r ∧ Record.BuiltFrom i d r' := by
  obtain ⟨g, n, ho⟩ := id h
  obtain ⟨d, hd, hr⟩ := Cache.outcome_ok ho.symm
  cases ho' : Cache.outcome rules.policy now i generation (source i) with
  | ok r' =>
      obtain ⟨d', hd', hr'⟩ := Cache.outcome_ok ho'
      obtain rfl := Except.ok.inj (hd.symm.trans hd')
      exact ⟨d, r', rfl, hr, hr'⟩
  | error f =>
      have hf := error ⟨generation, now, ho'.symm⟩ g n
      rw [← ho] at hf
      cases hf

theorem issuer {r : Record} (h : Reports rules source i (.ok r)) : r.issuer = i := by
  obtain ⟨d, r', -, hr, -⟩ := h.ok 0 0
  exact hr.issuer

end Reports

namespace Gate

/-- The verdict on a raw token when the engine that it gets is known and the issuer is asked anew. -/
def uncached (rules : GateRules) (source : Text → Except FetchFault Document)
    (engine : Text → Option TrustedIssuer) (unix : Int) (raw : Text) : Verdict :=
  match Unverified.parse raw with
  | .error f => .error ⟨.received, .malformed f⟩
  | .ok t =>
    match engine t.issuer with
    | none => .error ⟨.headerParsed, .untrusted t.issuer⟩
    | some e =>
      match rules.trust.resolve? e.url with
      | none => .error ⟨.headerParsed, .untrusted e.url⟩
      | some i =>
        match Cache.outcome rules.policy 0 i.url 0 (source i.url) with
        | .error f => .error ⟨.headerParsed, .unreachable f⟩
        | .ok r =>
          match r.selectKey t with
          | .ok k => conclude rules unix t e r k
          | .error _ => .error ⟨.issuerResolved, keyNotFound t⟩

variable {rules : GateRules} {source : Text → Except FetchFault Document}
  {engine : Text → Option TrustedIssuer} {unix : Int} {raw : Text} {t : Unverified} {e i : TrustedIssuer}

theorem uncached_of_asked (h : Asked rules (fun u e => engine u = some e) raw t e i) :
    uncached rules source engine unix raw =
      match Cache.outcome rules.policy 0 i.url 0 (source i.url) with
      | .error f => .error ⟨.headerParsed, .unreachable f⟩
      | .ok r =>
        match r.selectKey t with
        | .ok k => conclude rules unix t e r k
        | .error _ => .error ⟨.issuerResolved, keyNotFound t⟩ := by
  simp only [uncached, h.parsed, h.engine, h.named]

/-- When an issuer always answers the same, the records at hand and those that come from a forced refresh
decide alike. -/
theorem Decided.eq_uncached {v : Verdict} (hengine : ∀ u, rules.trust.resolve? u = none → engine u = none)
    (h : Decided rules (Reports rules source) (fun u e => engine u = some e) unix raw v) :
    v = uncached rules source engine unix raw := by
  cases h with
  | malformed hp => simp only [uncached, hp]
  | untrusted hp hi => simp only [uncached, hp, hengine _ hi]
  | unnamed hp he hi => simp only [uncached, hp, he, hi]
  | unreachable h hf => rw [uncached_of_asked h, hf.error 0 0]
  | refused h hr hk =>
      obtain ⟨d, r', ho, hd, hd'⟩ := hr.ok 0 0
      simp only [uncached_of_asked h, ho, ← hd.selectKey_congr hd', hk]
  | concluded h hr hk =>
      obtain ⟨d, r', ho, hd, hd'⟩ := hr.ok 0 0
      simp only [uncached_of_asked h, ho, ← hd.selectKey_congr hd', hk, hd.conclude_congr hd']
  | @refreshed t e i r a v h hr hk ha hv =>
      obtain ⟨d, r', ho, hd, hd'⟩ := hr.ok 0 0
      simp only [uncached_of_asked h, ho, ← hd.selectKey_congr hd', hk]
      cases a with
      | error f => exact (Progress.done.inj hv).symm
      -- The new record comes from the same document, so the key is absent from it as well.
      | ok r'' =>
          have hr'' : Reports rules source i.url (.ok r'') := hr.issuer ▸ ha
          obtain ⟨d₂, r₂, ho₂, hd₂, hd₂'⟩ := hr''.ok 0 0
          obtain rfl : r' = r₂ := Except.ok.inj (ho.symm.trans ho₂)
          have habsent : r''.selectKey t = .error .absent := by
            rw [hd₂.selectKey_congr hd₂', ← hd.selectKey_congr hd', hk]
          simp only [afterRefresh, habsent] at hv
          exact (Progress.done.inj hv).symm

end Gate

end BearerGate
