import BearerGate.Proofs.Cache.Holds
import BearerGate.Proofs.Run.Change

namespace BearerGate.Gate

open Cache

/-- A raw token is read, it is given the engine of an issuer, and the engine asks for the record of the
issuer that its URL names. -/
structure Asked (rules : GateRules) (E : Text → TrustedIssuer → Prop) (raw : Text) (t : Unverified)
    (e i : TrustedIssuer) : Prop where
  parsed : Unverified.parse raw = .ok t
  engine : E t.issuer e
  named : rules.trust.resolve? e.url = some i

/-- The verdicts that a raw token may get at a Unix time when `Q` says which outcomes the fetches of an
issuer may have and `E` which engine a claimed issuer may be given. -/
inductive Decided (rules : GateRules) (Q : Text → Outcome → Prop) (E : Text → TrustedIssuer → Prop)
    (unix : Int) (raw : Text) : Verdict → Prop
  | malformed {f} (hp : Unverified.parse raw = .error f) :
      Decided rules Q E unix raw (.error ⟨.received, .malformed f⟩)
  | untrusted {t} (hp : Unverified.parse raw = .ok t) (hi : rules.trust.resolve? t.issuer = none) :
      Decided rules Q E unix raw (.error ⟨.headerParsed, .untrusted t.issuer⟩)
  | unnamed {t e} (hp : Unverified.parse raw = .ok t) (he : E t.issuer e)
      (hi : rules.trust.resolve? e.url = none) :
      Decided rules Q E unix raw (.error ⟨.headerParsed, .untrusted e.url⟩)
  | unreachable {t e i f} (h : Asked rules E raw t e i) (hf : Q i.url (.error f)) :
      Decided rules Q E unix raw (.error ⟨.headerParsed, .unreachable f⟩)
  | refused {t e i r} (h : Asked rules E raw t e i) (hr : Q i.url (.ok r))
      (hk : r.selectKey t = .error .refused) :
      Decided rules Q E unix raw (.error ⟨.issuerResolved, keyNotFound t⟩)
  | concluded {t e i r k} (h : Asked rules E raw t e i) (hr : Q i.url (.ok r))
      (hk : r.selectKey t = .ok k) : Decided rules Q E unix raw (conclude rules unix t e r k)
  | refreshed {t e i r a v} (h : Asked rules E raw t e i) (hr : Q i.url (.ok r))
      (hk : r.selectKey t = .error .absent) (ha : Told Q r.issuer a)
      (hv : afterRefresh rules unix t e a = .done v) : Decided rules Q E unix raw v

def Attempt.Asking (rules : GateRules) (Q : Text → Outcome → Prop) (E : Text → TrustedIssuer → Prop)
    (raw : Text) (a : Attempt) : Prop :=
  ∃ i, Asked rules E raw a.token a.issuer i ∧
    match a.phase with
    | .lookup => a.ticket.issuer = i.url
    | .refresh => ∃ r, Q i.url (.ok r) ∧ r.selectKey a.token = .error .absent ∧ a.ticket.issuer = r.issuer

def Progress.Sound (rules : GateRules) (Q : Text → Outcome → Prop) (E : Text → TrustedIssuer → Prop)
    (unix : Int) (raw : Text) : Progress → Prop
  | .done v => Decided rules Q E unix raw v
  | .wait a => a.Asking rules Q E raw

variable {rules : GateRules} {Q Q' : Text → Outcome → Prop} {E : Text → TrustedIssuer → Prop} {now : Millis}
  {unix : Int} {raw : Text} {t : Unverified} {e i : TrustedIssuer}

theorem Attempt.Asking.mono {a : Attempt} (h : a.Asking rules Q E raw) (hQ : ∀ i o, Q i o → Q' i o) :
    a.Asking rules Q' E raw := by
  obtain ⟨i, ha, hp⟩ := h
  refine ⟨i, ha, ?_⟩
  split
  · rename_i hphase
    simpa only [hphase] using hp
  · rename_i hphase
    rw [hphase] at hp
    obtain ⟨r, hr, hp⟩ := hp
    exact ⟨r, hQ _ _ hr, hp⟩

theorem afterRefresh_done (rules : GateRules) (unix : Int) (t : Unverified) (e : TrustedIssuer)
    (a : Except AuthFault Record) : ∃ v, afterRefresh rules unix t e a = .done v := by
  simp only [afterRefresh]
  split
  · exact ⟨_, rfl⟩
  · split
    · exact ⟨_, rfl⟩
    · exact ⟨_, rfl⟩

theorem afterLookup_sound (h : Asked rules E raw t e i) {a : Except AuthFault Record} {c : Cache}
    (hc : c.Holds Q) (ha : Told Q i.url a) :
    (afterLookup rules now unix t e a c).2.Sound rules Q E unix raw := by
  cases a with
  | error f =>
      obtain ⟨g, rfl, hg⟩ := ha
      exact .unreachable h hg
  | ok r =>
      simp only [afterLookup]
      split
      · rename_i k hk
        exact .concluded h ha hk
      · rename_i hk
        exact .refused h ha hk
      · rename_i hk
        have hcount : { c with tally := c.tally.keyRefresh }.Holds Q :=
          hc.congr rfl fun j => ⟨.inr rfl, .inr rfl⟩
        have hreply := hcount.refresh rules.cache now r
        split
        · rename_i ticket he
          rw [he] at hreply
          exact ⟨i, h, r, ha, hk, hreply⟩
        · rename_i a he
          rw [he] at hreply
          obtain ⟨v, hv⟩ := afterRefresh_done rules unix t e a
          rw [hv]
          exact .refreshed h ha hk hreply hv

theorem engine_none {claimed : Text} {g : Gate} (h : (g.engine rules claimed).2 = none) :
    rules.trust.resolve? claimed = none := by
  rw [engine] at h
  split at h
  · assumption
  · split at h
    · cases h
    · cases h

theorem verify_sound {g : Gate} (hc : g.cache.Holds Q)
    (hE : ∀ claimed e, (g.engine rules claimed).2 = some e → E claimed e) :
    (g.verify rules now unix raw).2.Sound rules Q E unix raw := by
  rw [verify]
  split
  · rename_i f hp
    exact .malformed hp
  · rename_i t hp
    have hcache := engine_cache rules t.issuer g
    have he := hE t.issuer
    split
    · rename_i hn
      exact .untrusted hp (engine_none (congrArg Prod.snd hn))
    · rename_i g' e hs
      rw [hs] at hcache he
      have he := he e rfl
      rw [← hcache] at hc
      cases hi : rules.trust.resolve? e.url with
      | none =>
          rw [get_untrusted rules.cache hi]
          exact .unnamed hp he hi
      | some i =>
          have hreply := hc.get rules.cache now hi
          have hafter := hc.changes (get_asks rules.cache now e.url g'.cache)
          have hasked : Asked rules E raw t e i := ⟨hp, he, hi⟩
          split
          · rename_i ticket hget
            rw [hget] at hreply
            exact ⟨i, hasked, hreply⟩
          · rename_i a hget
            rw [hget] at hreply hafter
            exact afterLookup_sound hasked hafter hreply

theorem resume_sound {g : Gate} (hc : g.cache.Holds Q) {a : Attempt} (ha : a.Asking rules Q E raw)
    {o : Outcome} (ho : Q a.ticket.issuer o) :
    (g.resume rules now unix a o).2.Sound rules Q E unix raw := by
  obtain ⟨i, hasked, hp⟩ := ha
  rw [resume]
  split
  · rename_i hphase
    rw [hphase] at hp
    have hafter := hc.changes (finishGet_asks rules.policy now a.ticket.issuer o g.cache)
    have htold := hc.finishGet now ho
    rw [hp] at hafter htold ⊢
    exact afterLookup_sound hasked hafter htold
  · rename_i hphase
    rw [hphase] at hp
    obtain ⟨r, hr, hk, hi⟩ := hp
    rw [hi] at ho
    obtain ⟨v, hv⟩ := afterRefresh_done rules unix a.token a.issuer (finishRefresh o)
    rw [hv]
    exact .refreshed hasked hr hk (finishRefresh_told ho) hv

end BearerGate.Gate
