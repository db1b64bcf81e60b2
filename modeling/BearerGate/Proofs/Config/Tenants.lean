import BearerGate.Proofs.Config.Honoured
import BearerGate.Proofs.Run.Returned

namespace BearerGate

open IssuerUrl

/-- A core issuer, or one that is bound to a tenant that is not empty. -/
def TrustedIssuer.NamesTenant (i : TrustedIssuer) : Prop :=
  i.isCore = true ∨ ∃ id, i.binding = .tenant id ∧ id ≠ []

/-- Whoever is accepted, under whatever spelling, is core or names a tenant. -/
def TrustPolicy.NamesTenants (p : TrustPolicy) : Prop :=
  ∀ claimed i, p.resolve? claimed = some i → i.NamesTenant

/-- Whoever is let in by an issuer that is not core has a tenant that is not empty. -/
def GateRules.GivesTenants (rules : GateRules) : Prop :=
  ∀ (epoch : Int) (l : List Action) (id : Nat) (raw : Text) (p : Principal),
    ((Run.requests l)[id]?).bind Request.token? = some raw →
      (Run.after rules { epoch := epoch } l).result? id = some (.verdict (.ok p)) →
        p.isCore = false → ∃ tenant, p.tenant = some tenant ∧ tenant ≠ []

/-- No realm has an empty tenant, but for those that nobody can claim: they have no name or a slash in it, or
a listed issuer stands before them. -/
def TrustSettings.NamesRealmTenants (s : TrustSettings) : Prop :=
  ∀ r ∈ s.realms, ∀ realm, r.tenants.lookup realm = some [] →
    realm = [] ∨ '/' ∈ realm ∨ ∃ e ∈ s.issuers,
      normalForm e.issuer = normalForm (RealmRule.make r.baseUrl r.tenants).base ++ '/' :: realm

namespace TrustPolicy

variable {s : TrustSettings} {n : Text} {i : TrustedIssuer}

theorem namesTenant_of_listed (h : ∀ e ∈ s.issuers, e.HasTenant)
    (hi : (ofSettings s).issuers.lookup n = some i) : i.NamesTenant := by
  obtain ⟨-, e, he, hlisted⟩ := exists_listed hi
  obtain ⟨b, hb, hlisted'⟩ := listed?_of_hasTenant (h e he)
  rw [hlisted'] at hlisted
  obtain rfl := Option.some.inj hlisted
  cases hb with
  | core hcore => exact .inl rfl
  | tenant hcore hid =>
      rcases h e he with hcore' | ⟨id, hid', hne⟩
      · rw [hcore] at hcore'
        cases hcore'
      · rw [hid] at hid'
        obtain rfl := Option.some.inj hid'
        exact .inr ⟨_, rfl, hne⟩

theorem lookup_eq_none_iff (h : ∀ e ∈ s.issuers, e.HasTenant) :
    (ofSettings s).issuers.lookup n = none ↔ ∀ e ∈ s.issuers, normalForm e.issuer ≠ n := by
  constructor
  · rintro hnone e he rfl
    obtain ⟨last, b, -, -, hlookup⟩ := lookup_of_mem h he
    rw [hlookup] at hnone
    cases hnone
  · intro hnone
    cases hi : (ofSettings s).issuers.lookup n with
    | none => rfl
    | some i =>
        obtain ⟨hn, e, he, hlisted⟩ := exists_listed hi
        rw [listed?_url hlisted] at hn
        exact absurd hn (hnone e he)

theorem resolve?_of_realm {claimed : Text} (hnone : (ofSettings s).issuers.lookup (normalForm claimed) = none)
    {r : RealmSettings} (hr : r ∈ s.realms) :
    (ofSettings s).resolve? claimed = (RealmRule.make r.baseUrl r.tenants).resolve? claimed := by
  rw [resolve?, hnone]
  simp only [ofSettings, Option.mem_def.mp hr, Option.map_some, Option.bind_some]

theorem namesTenants_iff_realms (h : ∀ e ∈ s.issuers, e.HasTenant) :
    (ofSettings s).NamesTenants ↔ s.NamesRealmTenants := by
  constructor
  · intro hnames r hr realm htenant
    by_contra hclaimable
    push Not at hclaimable
    obtain ⟨hne, hslash, hlisted⟩ := hclaimable
    obtain ⟨claimed, hclaimed⟩ := exists_below (RealmRule.make r.baseUrl r.tenants).base hne hslash
    have hnone : (ofSettings s).issuers.lookup (normalForm claimed) = none := by
      rw [lookup_eq_none_iff h, hclaimed]
      exact hlisted
    have hrealm := RealmRule.resolve?_eq_some_iff.mpr ⟨realm, [], hclaimed, hne, hslash, htenant, rfl⟩
    rw [← resolve?_of_realm hnone hr] at hrealm
    rcases hnames claimed _ hrealm with hcore | ⟨id, hid, hne⟩
    · cases hcore
    · exact hne (Binding.tenant.inj hid).symm
  · intro hrealms claimed i hi
    rcases resolve?_cases hi with hi | ⟨hnone, rule, hrule, hi⟩
    · exact namesTenant_of_listed h hi
    · obtain ⟨r, hr, rfl⟩ := Option.map_eq_some_iff.mp hrule
      obtain ⟨realm, tenant, hclaimed, hne, hslash, htenant, rfl⟩ := RealmRule.resolve?_eq_some_iff.mp hi
      refine .inr ⟨tenant, rfl, ?_⟩
      rintro rfl
      -- Whoever claims the realm is refused by the rule, or is found in the list and never comes to the rule.
      rcases hrealms r hr realm htenant with hnil | hmem | ⟨e, he, hlisted⟩
      · exact hne hnil
      · exact hslash hmem
      · rw [lookup_eq_none_iff h, hclaimed] at hnone
        exact hnone e he hlisted

end TrustPolicy

theorem GateRules.givesTenants_of_namesTenants {rules : GateRules} (h : rules.trust.NamesTenants) :
    rules.GivesTenants := by
  intro epoch l id raw p hreq hp hcore
  obtain ⟨l₁, a, l₂, rfl, -, -, hdecided⟩ := Run.decided_after hreq hp
  obtain ⟨t, e, i, r, k, hasked, -, -, hconclude⟩ := hdecided.concluded_of_ok fun i r hl => hl.issuer
  obtain ⟨c, v, -, hcheck, rfl⟩ := Gate.conclude_ok hconclude
  obtain ⟨haccepts, hnone⟩ := Validation.tenant_ok (Validation.check_passed hcheck).tenant
  -- The engine is that of the claimed issuer or of one with the same URL; both are accepted under a spelling.
  obtain ⟨-, claimed, -, he, -⟩ := hasked.engine
  have hdedicated : e.isCore = false := hcore
  rcases h claimed e he with hcore | ⟨bound, hbound, hne⟩
  · rw [hdedicated] at hcore
    cases hcore
  · cases hv : v.tenant with
    | none =>
        rw [hnone hv] at hdedicated
        cases hdedicated
    | some tenant =>
        have htenant := haccepts tenant hv
        rw [TrustedIssuer.acceptsTenant, hbound, decide_eq_true_eq] at htenant
        exact ⟨tenant, hv, htenant ▸ hne⟩

namespace Settings

/-- What is loaded lists no issuer without a tenant, but its realms are not looked at: all who are accepted
have one exactly when every realm that can be claimed has. -/
theorem namesTenants_iff {env : Environment} {t : Text} {s : Settings} (h : load env t = .ok s) :
    (∀ n i, (TrustPolicy.ofSettings s.trust).issuers.lookup n = some i → i.NamesTenant) ∧
      ((TrustPolicy.ofSettings s.trust).NamesTenants ↔ s.trust.NamesRealmTenants) ∧
        (s.trust.NamesRealmTenants → ∃ rules, GateRules.ofSettings s = .ok rules ∧ rules.GivesTenants) := by
  have hvalid := valid_of_load h
  have hiff := TrustPolicy.namesTenants_iff_realms hvalid.hasTenant
  refine ⟨fun n i => TrustPolicy.namesTenant_of_listed hvalid.hasTenant, hiff, fun hrealms => ?_⟩
  exact ⟨_, hvalid.ofSettings, GateRules.givesTenants_of_namesTenants (hiff.mpr hrealms)⟩

def realmText (listed : Text) : Text :=
  "service:\n  namespace: p\n  name: s\ntrust:\n" ++ listed ++
    "  realms:\n    base_url: https://idp.example\n    tenants:\n      abc: \"\"\n"

def realmSettings (listed : List IssuerSettings) : Settings where
  service := ⟨"p", "s"⟩
  trust := { issuers := listed, realms := some ⟨"https://idp.example", [("abc", [])]⟩ }

def abcListed : Text := "  issuers:\n    - issuer: https://idp.example/abc\n      tenant: t\n"

theorem load_realmText_listed :
    load [] (realmText abcListed) = .ok (realmSettings Run.abcSettings.issuers) := by
  decide +kernel

theorem namesTenants_listed :
    load [] (realmText abcListed) = .ok (realmSettings Run.abcSettings.issuers) ∧
      (TrustPolicy.ofSettings (realmSettings Run.abcSettings.issuers).trust).NamesTenants ∧
        ∃ rules, GateRules.ofSettings (realmSettings Run.abcSettings.issuers) = .ok rules ∧
          rules.GivesTenants := by
  have hrealms : (realmSettings Run.abcSettings.issuers).trust.NamesRealmTenants := by
    rintro r hr realm htenant
    obtain rfl := Option.some.inj hr
    obtain ⟨rfl, -⟩ := Prod.mk.inj (List.mem_singleton.mp (Assoc.mem_of_lookup htenant))
    exact .inr (.inr ⟨_, List.mem_singleton_self _, by decide⟩)
  obtain ⟨-, hiff, hgives⟩ := namesTenants_iff load_realmText_listed
  exact ⟨load_realmText_listed, hiff.mpr hrealms, hgives hrealms⟩

def realmRules : GateRules :=
  ⟨.ofSettings (realmSettings []).trust, .ofSettings {}, .ofSettings (realmSettings []).trust, ⟨"p", "s"⟩⟩

/-- A configuration whose only realm has an empty tenant is accepted, and so are tokens of that realm. -/
theorem not_namesTenants_realm :
    load [] (realmText []) = .ok (realmSettings []) ∧
      GateRules.ofSettings (realmSettings []) = .ok realmRules ∧
        ¬(TrustPolicy.ofSettings (realmSettings []).trust).NamesTenants ∧ ¬realmRules.GivesTenants := by
  refine ⟨by decide +kernel, by decide +kernel, ?_, ?_⟩
  · intro h
    have hresolve : (TrustPolicy.ofSettings (realmSettings []).trust).resolve? "https://idp.example/abc" =
        some ⟨"https://idp.example/abc", .tenant []⟩ := by decide
    rcases h _ _ hresolve with hcore | ⟨id, hid, hne⟩
    · cases hcore
    · exact hne (Binding.tenant.inj hid).symm
  · intro h
    have haccepted : (Run.after realmRules { epoch := 1700000000 } Run.abcRun).result? 0 =
        some (.verdict (.ok { Run.abcPrincipal with tenant := some [] })) := by decide +kernel
    obtain ⟨tenant, htenant, hne⟩ := h _ _ _ _ _ rfl haccepted rfl
    exact hne (Option.some.inj htenant).symm

end Settings

end BearerGate
