import BearerGate.Config.Load

namespace BearerGate

/-- Fit to be a part of the name of the service. White space around it does no harm. -/
def Text.IsPart (t : Text) : Prop := Text.trim t ≠ [] ∧ ':' ∉ t

def IssuerSettings.HasTenant (i : IssuerSettings) : Prop := i.core = true ∨ ∃ id, i.tenant = some id ∧ id ≠ []

namespace Settings

/-- All that settings are checked for. -/
structure Valid (s : Settings) : Prop where
  space : s.service.space.IsPart
  name : s.service.name.IsPart
  trusting : s.trust.issuers ≠ [] ∨ s.trust.realms ≠ none
  issuers : ∀ i ∈ s.trust.issuers, isHttpUrl i.issuer = true ∧ i.HasTenant
  realms : ∀ r ∈ s.trust.realms, isHttpUrl r.baseUrl = true
  tenantClaim : Text.trim s.trust.tenantClaim ≠ []
  ttl : s.cache.minTtl ≤ s.cache.maxTtl
  timeout : s.cache.fetchTimeout ≠ 0
  format : s.logging.format = "json" ∨ s.logging.format = "pretty"

theorem Valid.hasTenant {s : Settings} (h : s.Valid) : ∀ e ∈ s.trust.issuers, e.HasTenant :=
  fun e he => (h.issuers e he).2

theorem seq_eq_ok_iff {x y : Except Fault Unit} : (do x; y) = .ok () ↔ x = .ok () ∧ y = .ok () := by
  cases x with
  | error f => simp [bind, Except.bind]
  | ok u => simp [bind, Except.bind]

theorem guard_eq_ok_iff {p : Prop} [Decidable p] {f : Fault} {next : PUnit → Except Fault Unit} :
    (if p then throw f >>= next else next ⟨⟩) = .ok () ↔ ¬p ∧ next ⟨⟩ = .ok () := by
  by_cases hp : p
  · simp [hp, throw, throwThe, MonadExceptOf.throw, bind, Except.bind]
  · simp [hp]

theorem throw_eq_ok_iff {p : Prop} [Decidable p] {f : Fault} :
    (if p then throw f else pure () : Except Fault Unit) = .ok () ↔ ¬p := by
  by_cases hp : p
  · simp [hp, throw, throwThe, MonadExceptOf.throw]
  · simp [hp, pure, Except.pure]

theorem checkPart_eq_ok_iff {field t : Text} : checkPart field t = .ok () ↔ t.IsPart := by
  rw [checkPart, Text.IsPart]
  by_cases hblank : Text.trim t = []
  · simp [hblank]
  · by_cases hcolon : ':' ∈ t
    · simp [hblank, hcolon]
    · simp [hblank, hcolon]

theorem checkIssuer_eq_ok_iff {i : IssuerSettings} :
    checkIssuer i = .ok () ↔ isHttpUrl i.issuer = true ∧ i.HasTenant := by
  have htenant : (!i.core && i.tenant.all (· = [])) = true ↔ ¬i.HasTenant := by
    cases hi : i.tenant <;> simp [IssuerSettings.HasTenant, hi]
  rw [checkIssuer]
  by_cases hurl : isHttpUrl i.issuer = true
  · by_cases hi : i.HasTenant
    · simp [hurl, hi, htenant]
    · simp [hurl, hi, htenant]
  · simp [hurl]

theorem checkIssuers_eq_ok_iff {l : List IssuerSettings} :
    checkIssuers l = .ok () ↔ ∀ i ∈ l, isHttpUrl i.issuer = true ∧ i.HasTenant := by
  induction l with
  | nil => simp [checkIssuers]
  | cons i r ih => rw [checkIssuers, seq_eq_ok_iff, checkIssuer_eq_ok_iff, ih, List.forall_mem_cons]

theorem checkTrust_eq_ok_iff {t : TrustSettings} : checkTrust t = .ok () ↔
    (t.issuers ≠ [] ∨ t.realms ≠ none) ∧ (∀ i ∈ t.issuers, isHttpUrl i.issuer = true ∧ i.HasTenant) ∧
      (∀ r ∈ t.realms, isHttpUrl r.baseUrl = true) ∧ Text.trim t.tenantClaim ≠ [] := by
  have htrusting : ¬(t.issuers.isEmpty && t.realms.isNone) = true ↔ t.issuers ≠ [] ∨ t.realms ≠ none := by
    simp [Classical.or_iff_not_imp_left]
  rw [checkTrust]
  refine guard_eq_ok_iff.trans (and_congr htrusting ?_)
  refine seq_eq_ok_iff.trans (and_congr checkIssuers_eq_ok_iff ?_)
  cases hr : t.realms with
  | none =>
    refine throw_eq_ok_iff.trans ?_
    simp
  | some r =>
    refine guard_eq_ok_iff.trans ?_
    rw [throw_eq_ok_iff]
    simp

theorem checkCache_eq_ok_iff {c : CacheSettings} :
    checkCache c = .ok () ↔ c.minTtl ≤ c.maxTtl ∧ c.fetchTimeout ≠ 0 := by
  rw [checkCache]
  refine guard_eq_ok_iff.trans ?_
  rw [throw_eq_ok_iff, Nat.not_lt]

theorem checkLogging_eq_ok_iff {l : LoggingSettings} :
    checkLogging l = .ok () ↔ l.format = "json" ∨ l.format = "pretty" := by
  rw [checkLogging]
  split
  · rename_i h
    exact iff_of_true rfl h
  · rename_i h
    exact iff_of_false nofun h

theorem check_eq_ok_iff {s : Settings} : s.check = .ok () ↔ s.Valid := by
  rw [check, seq_eq_ok_iff, seq_eq_ok_iff, seq_eq_ok_iff, seq_eq_ok_iff, checkPart_eq_ok_iff,
    checkPart_eq_ok_iff, checkTrust_eq_ok_iff, checkCache_eq_ok_iff, checkLogging_eq_ok_iff]
  constructor
  · rintro ⟨hspace, hname, ⟨htrusting, hissuers, hrealms, hclaim⟩, ⟨httl, htimeout⟩, hformat⟩
    exact ⟨hspace, hname, htrusting, hissuers, hrealms, hclaim, httl, htimeout, hformat⟩
  · rintro ⟨hspace, hname, htrusting, hissuers, hrealms, hclaim, httl, htimeout, hformat⟩
    exact ⟨hspace, hname, ⟨htrusting, hissuers, hrealms, hclaim⟩, ⟨httl, htimeout⟩, hformat⟩

theorem valid_of_load {env : Environment} {t : Text} {s : Settings} (h : load env t = .ok s) : s.Valid := by
  rw [load] at h
  split at h
  · split at h
    · rename_i hcheck
      obtain rfl := Except.ok.inj h
      exact check_eq_ok_iff.mp hcheck
    · cases h
  · cases h

end Settings

end BearerGate
