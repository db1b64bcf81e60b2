import BearerGate.Proofs.Key.Selected
import BearerGate.Proofs.Run.Sound
import BearerGate.Proofs.Token.Validated
import BearerGate.Proofs.Trust.Canonical

namespace BearerGate

/-- The signature over the two segments is made by the key, and the second segment holds the claims. -/
def Unverified.Signed (t : Unverified) (k : SigningKey) (c : Claims) : Prop :=
  ∃ head body signature bytes, segments? t.raw = some (head, body, signature) ∧
    Base64Url.decode? signature = some bytes ∧
    k.material.verifies t.header.alg (Utf8.encode (head ++ '.' :: body)) bytes = true ∧
    (Base64Url.decode? body).bind Claims.parse? = some c

theorem Unverified.verify_ok {t : Unverified} {k : SigningKey} {c : Claims} (h : t.verify k = .ok c) :
    t.Signed k c := by
  rw [verify] at h
  split at h
  · cases h
  rename_i head body signature hsegments
  split at h
  · cases h
  rename_i bytes hbytes
  split at h
  · rename_i hverifies
    split at h
    · rename_i c' hc
      obtain rfl := Except.ok.inj h
      exact ⟨head, body, signature, bytes, hsegments, hbytes, hverifies, hc⟩
    · cases h
  · cases h

/-- What is true of an accepted token: its issuer, the document that was fetched of the issuer, the key and
the signed claims, at the Unix time of the checks, and who is let in. -/
structure Accepted (rules : GateRules) (unix : Int) (t : Unverified) (i : TrustedIssuer) (d : Document)
    (k : SigningKey) (c : Claims) (p : Principal) : Prop where
  resolved : rules.trust.resolve? t.issuer = some i
  iss : c.iss = some i.url
  issuer : p.issuer = i.url
  isCore : p.isCore = i.isCore
  described : d.metadata.issuer = i.url
  usable : ∃ j ∈ d.jwks, j.usable? = some k
  supports : k.supports t.header.alg = true
  asymmetric : t.header.alg.isSymmetric = false
  advertised : d.metadata.signingAlgorithms = [] ∨
    ∃ n ∈ d.metadata.signingAlgorithms, Algorithm.named? n = some t.header.alg
  kid : ∀ id, t.header.kid = some id → k.kid = some id
  signed : t.Signed k c
  expiry : ∃ exp, c.exp = some exp ∧ unix < exp + rules.validation.clockSkew
  notBefore : ∀ nbf, c.nbf = some nbf → nbf - rules.validation.clockSkew ≤ unix
  audience : rules.validation.requireAudience = true →
    ∃ a ∈ c.aud, a = rules.service.urn ∨ a ∈ rules.validation.acceptedAudiences
  tenant : ∀ id, p.tenant = some id → i.acceptsTenant id = true
  noTenant : p.tenant = none → i.isCore = true
  subject : ∃ sub, c.sub = some sub ∧ p.subject = Text.trim sub ∧ p.subject ≠ []

namespace Gate

variable {rules : GateRules} {Q : Text → Outcome → Prop} {E : Text → TrustedIssuer → Prop} {unix : Int}
  {raw : Text} {t : Unverified} {e i : TrustedIssuer} {r : Record} {k : SigningKey} {p : Principal}

theorem Decided.concluded_of_ok (h : Decided rules Q E unix raw (.ok p))
    (hQ : ∀ i r, Q i (.ok r) → r.issuer = i) :
    ∃ t e i r k, Asked rules E raw t e i ∧ Q i.url (.ok r) ∧ r.selectKey t = .ok k ∧
      conclude rules unix t e r k = .ok p := by
  generalize hv : (Except.ok p : Verdict) = v at h
  cases h with
  | malformed | untrusted | unnamed | unreachable | refused => cases hv
  | concluded hasked hr hk => exact ⟨_, _, _, _, _, hasked, hr, hk, rfl⟩
  | @refreshed t e i r a v hasked hr hk ha hafter =>
      subst hv
      cases a with
      | error f => simp [afterRefresh, reject] at hafter
      | ok r' =>
          have hr' : Q i.url (.ok r') := hQ i.url r hr ▸ ha
          simp only [afterRefresh] at hafter
          split at hafter
          · rename_i k hk'
            exact ⟨t, e, i, r', k, hasked, hr', hk', Progress.done.inj hafter⟩
          · simp [reject] at hafter

theorem conclude_ok (h : conclude rules unix t e r k = .ok p) :
    ∃ c v, t.verify k = .ok c ∧
      Validation.check e rules.validation r.issuer rules.service c unix = .ok v ∧
      p = Principal.make v e rules.service := by
  rw [conclude] at h
  split at h
  · cases h
  rename_i c hc
  split at h
  · cases h
  rename_i v hv
  exact ⟨c, v, hc, hv, (Except.ok.inj h).symm⟩

theorem accepted_of_conclude (hi : rules.trust.resolve? t.issuer = some i) {d : Document}
    (hd : Record.BuiltFrom i.url d r) (hk : r.selectKey t = .ok k)
    (h : conclude rules unix t i r k = .ok p) : ∃ c, Accepted rules unix t i d k c p := by
  obtain ⟨c, v, hverify, hcheck, rfl⟩ := conclude_ok h
  have hpassed := Validation.check_passed hcheck
  have hselected := Record.selectKey_ok hk
  have hsigned := Unverified.verify_ok hverify
  obtain ⟨head, body, signature, bytes, -, -, -, hparse⟩ := hsigned
  obtain ⟨payload, -, hparse⟩ := Option.bind_eq_some_iff.mp hparse
  obtain ⟨hexp, hnbf⟩ := Claims.parse?_isSigned hparse
  have htenant := Validation.tenant_ok hpassed.tenant
  have hallowed : d.metadata.allows t.header.alg = true := hd.metadata ▸ hselected.allowed
  have hmem : k ∈ KeySet.ofJwks d.jwks := hd.keys ▸ hselected.mem
  exact ⟨c,
    { resolved := hi
      iss := hd.issuer ▸ hpassed.iss
      issuer := rfl
      isCore := rfl
      described := hd.described
      usable := List.mem_filterMap.mp hmem
      supports := hselected.supports
      asymmetric := hselected.asymmetric
      advertised := Metadata.advertises hallowed
      kid := hselected.kid
      signed := Unverified.verify_ok hverify
      expiry := Validation.expiry_ok hpassed.expiry hexp
      notBefore := Validation.notBefore_ok hpassed.notBefore hnbf
      audience := fun h => Validation.audienceAccepted_iff.mp (hpassed.audience h)
      tenant := htenant.1
      noTenant := htenant.2
      subject := Validation.subject_ok hpassed.subject }⟩

end Gate

namespace Run

variable {rules : GateRules} {s : Run} {l : List Action}

def Fetched (rules : GateRules) (s : Run) (l : List Action) (url : Text) (d : Document) : Prop :=
  ∃ t l₁ l₂, t.issuer = url ∧ l = l₁ ++ .land t (.ok d) :: l₂ ∧ (after rules s l₁).InFlight t

theorem Landed.fetched {url : Text} {r : Record} (h : Landed rules s l url (.ok r)) :
    ∃ d, Fetched rules s l url d ∧ Record.BuiltFrom url d r := by
  obtain ⟨t, rfl, l₁, result, l₂, rfl, hf, ho⟩ := h
  obtain ⟨d, rfl, hd⟩ := Cache.outcome_ok ho.symm
  exact ⟨d, ⟨t, l₁, l₂, rfl, rfl, hf⟩, hd⟩

/-- No token is accepted but for good reasons. When no URL and no realm name of the configuration has white
space, whoever is let in, in whatever run, holds a token of the issuer that it names, signed by a usable key
of a document fetched of that issuer before, with claims that were in order at the moment of the verdict. -/
theorem accepted {settings : TrustSettings} (hs : settings.IsSolid)
    (hrules : rules.trust = .ofSettings settings) (epoch : Int) (l : List Action) (id : Nat) (raw : Text)
    (p : Principal) (hreq : ((requests l)[id]?).bind Request.token? = some raw)
    (hp : (after rules { epoch := epoch } l).result? id = some (.verdict (.ok p))) :
    ∃ l₁ a l₂, l = l₁ ++ a :: l₂ ∧ (after rules { epoch := epoch } l₁).result? id = none ∧
      (after rules { epoch := epoch } (l₁ ++ [a])).result? id = some (.verdict (.ok p)) ∧
        ∃ t i d k c, Unverified.parse raw = .ok t ∧ Fetched rules { epoch := epoch } l₁ i.url d ∧
          Accepted rules (after rules { epoch := epoch } l₁).unix t i d k c p := by
  obtain ⟨l₁, a, l₂, rfl, hnone, hended, hdecided⟩ := decided_after hreq hp
  refine ⟨l₁, a, l₂, rfl, hnone, hended, ?_⟩
  have hQ : ∀ i r, Landed rules { epoch := epoch } l₁ i (.ok r) → r.issuer = i := by
    intro i r hl
    obtain ⟨d, -, hd⟩ := hl.fetched
    exact hd.issuer
  obtain ⟨t, e, i, r, k, hasked, hr, hk, hconclude⟩ := hdecided.concluded_of_ok hQ
  obtain ⟨d, hfetched, hd⟩ := hr.fetched
  -- The claimed issuer, the engine and the record are found by different ways; without white space the
  -- canonical URL, which they share, names one issuer only.
  obtain ⟨j, claimed, hj, he, hurl⟩ := hasked.engine
  rw [hrules] at hj he
  have hee := TrustPolicy.resolve?_url hs he
  have hjj := TrustPolicy.resolve?_url hs hj
  rw [hurl, hjj] at hee
  obtain rfl := Option.some.inj hee
  have hnamed := hasked.named
  rw [hrules, hjj] at hnamed
  obtain rfl := Option.some.inj hnamed
  rw [← hrules] at hj
  obtain ⟨c, hc⟩ := Gate.accepted_of_conclude hj hd hk hconclude
  exact ⟨t, j, d, k, c, hasked.parsed, hfetched, hc⟩

def abcSettings : TrustSettings where
  issuers := [⟨"https://idp.example/abc", some "t", false, []⟩]

def abcRules : GateRules :=
  ⟨.ofSettings abcSettings, .ofSettings {}, .ofSettings abcSettings, ⟨"p", "s"⟩⟩

def abcDocument : Document where
  metadata := ⟨"https://idp.example/abc", none, none, "https://idp.example/keys", []⟩
  jwks := [⟨"OKP", some "k", none, none, none, none, some "Ed25519",
    some "DZR1rSAnWZNeWqqvusH5Af3N5vS5QoKdcu-M61KA-ys", none⟩]
  maxAge := none

def abcToken : Text :=
  "eyJhbGciOiJFZERTQSIsImtpZCI6ImsifQ." ++
    "eyJpc3MiOiJodHRwczovL2lkcC5leGFtcGxlL2FiYyIsInN1YiI6InUiLCJhdWQiOiJ1cm46YWRzOnA6cyIsImV4" ++
    "cCI6MTcwMDAwMDMwMH0." ++
    "FTtEiiaDYaPu26CFOEOdlRvPNKYPtxygGaZQ42zYRqHPf3Qq_YmwlQs89D5ahxej8dZ5E-46VD3Di3x4ZhX2AA"

def abcRun : List Action :=
  [.call (.verify abcToken), .land ⟨"https://idp.example/abc", 0⟩ (.ok abcDocument), .resume 0]

def abcPrincipal : Principal := ⟨"u", "https://idp.example/abc", some "t", false, [], [], [], []⟩

theorem result?_abcRun :
    (after abcRules { epoch := 1700000000 } abcRun).result? 0 = some (.verdict (.ok abcPrincipal)) := by
  decide +kernel

theorem accepted_abc :
    (after abcRules { epoch := 1700000000 } abcRun).result? 0 = some (.verdict (.ok abcPrincipal)) ∧
      ∃ l t i d k c, Unverified.parse abcToken = .ok t ∧
        Fetched abcRules { epoch := 1700000000 } l i.url d ∧
          Accepted abcRules (after abcRules { epoch := 1700000000 } l).unix t i d k c abcPrincipal := by
  have hsolid : abcSettings.IsSolid := by decide
  obtain ⟨l, a, l', -, -, -, t, i, d, k, c, ht, hd, hc⟩ :=
    accepted hsolid rfl 1700000000 abcRun 0 abcToken abcPrincipal rfl result?_abcRun
  exact ⟨result?_abcRun, l, t, i, d, k, c, ht, hd, hc⟩

end Run

end BearerGate
