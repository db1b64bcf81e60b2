import BearerGate.Gate.Basic
import BearerGate.Proofs.Config.Valid
import BearerGate.Proofs.Trust.Canonical

namespace BearerGate

open IssuerUrl

theorem Identity.checkPart_ok {part : Part} {t : Text} (h : t.IsPart) :
    checkPart part (Text.trim t) = .ok (Text.trim t) := by
  rw [checkPart, if_neg h.1, if_neg fun hc => h.2 (Text.mem_of_mem_trim hc)]

theorem Identity.make_ok {space name : Text} (hspace : space.IsPart) (hname : name.IsPart) :
    make space name = .ok ⟨Text.trim space, Text.trim name⟩ := by
  rw [make, checkPart_ok hspace, checkPart_ok hname]
  rfl

/-- Whom an entry of the trust list speaks for. The tenant of a core issuer does not count. -/
inductive IssuerSettings.Binds (e : IssuerSettings) : Binding → Prop
  | core (h : e.core = true) : e.Binds (.core e.allowedTenants)
  | tenant {id : Text} (h : e.core = false) (hid : e.tenant = some id) : e.Binds (.tenant id)

/-- Of the entries that are one issuer with the URL, this is the last. -/
def TrustSettings.LastListed (s : TrustSettings) (url : Text) (e : IssuerSettings) : Prop :=
  normalForm e.issuer = normalForm url ∧
    ∃ before after, s.issuers = before ++ e :: after ∧ ∀ x ∈ after, normalForm x.issuer ≠ normalForm url

namespace TrustPolicy

variable {s : TrustSettings} {e : IssuerSettings} {i : TrustedIssuer} {url : Text}

theorem listed?_of_hasTenant (h : e.HasTenant) : ∃ b, e.Binds b ∧ listed? e = some ⟨e.issuer, b⟩ := by
  cases hcore : e.core with
  | true => exact ⟨_, .core hcore, by rw [listed?, if_pos hcore]⟩
  | false =>
      rcases h with h | ⟨id, hid, -⟩
      · rw [hcore] at h
        cases h
      · exact ⟨_, .tenant hcore hid, by rw [listed?, hcore, hid]; rfl⟩

theorem listed?_url (h : listed? e = some i) : i.url = e.issuer := by
  rw [listed?] at h
  split at h
  · obtain rfl := Option.some.inj h
    rfl
  · obtain ⟨id, -, rfl⟩ := Option.map_eq_some_iff.mp h
    rfl

theorem map_url_listed (h : ∀ e ∈ s.issuers, e.HasTenant) :
    (s.issuers.filterMap listed?).map (·.url) = s.issuers.map (·.issuer) := by
  generalize s.issuers = l at h
  induction l with
  | nil => rfl
  | cons e r ih =>
      obtain ⟨he, hr⟩ := List.forall_mem_cons.mp h
      obtain ⟨b, -, hb⟩ := listed?_of_hasTenant he
      rw [List.filterMap_cons_some hb, List.map_cons, List.map_cons, ih hr]

theorem exists_lastListed (h : e ∈ s.issuers) : ∃ last, s.LastListed e.issuer last := by
  have hform : ∃ x ∈ s.issuers, normalForm x.issuer = normalForm e.issuer := ⟨e, h, rfl⟩
  obtain ⟨before, last, after, hsplit, hform, hafter⟩ := exists_last hform
  exact ⟨last, hform, before, after, hsplit, hafter⟩

theorem lookup_of_lastListed (h : s.LastListed url e) (hi : listed? e = some i) :
    (ofSettings s).issuers.lookup (normalForm url) = some i := by
  obtain ⟨hform, before, after, hsplit, hafter⟩ := h
  have hnone : ((after.filterMap listed?).map fun j => (normalForm j.url, j)).reverse.lookup
      (normalForm url) = none := by
    rw [List.lookup_eq_none_iff]
    intro p hp
    obtain ⟨j, hj, rfl⟩ := List.mem_map.mp (List.mem_reverse.mp hp)
    obtain ⟨x, hx, hxj⟩ := List.mem_filterMap.mp hj
    have hne := hafter x hx
    rw [← listed?_url hxj] at hne
    simpa using hne.symm
  rw [← listed?_url hi] at hform
  simp only [ofSettings, Assoc.lookup_ofList, hsplit, List.filterMap_append, List.filterMap_cons_some hi,
    List.map_append, List.map_cons, List.reverse_append, List.reverse_cons, List.lookup_append, hnone,
    hform]
  simp

theorem lookup_of_mem (h : ∀ e ∈ s.issuers, e.HasTenant) (he : e ∈ s.issuers) :
    ∃ last b, s.LastListed e.issuer last ∧ last.Binds b ∧
      (ofSettings s).issuers.lookup (normalForm e.issuer) = some ⟨last.issuer, b⟩ := by
  obtain ⟨last, hlast⟩ := exists_lastListed he
  obtain ⟨-, before, after, hsplit, -⟩ := id hlast
  have hmem : last ∈ s.issuers := by simp [hsplit]
  obtain ⟨b, hb, hlisted⟩ := listed?_of_hasTenant (h last hmem)
  exact ⟨last, b, hlast, hb, lookup_of_lastListed hlast hlisted⟩

theorem resolve?_of_lookup {p : TrustPolicy} (h : p.issuers.lookup (normalForm url) = some i) :
    p.resolve? url = some i := by
  rw [resolve?, h]

end TrustPolicy

/-- The rules do what the settings say. -/
structure GateRules.Honours (r : GateRules) (s : Settings) : Prop where
  ttl : r.policy.minTtl ≤ r.policy.maxTtl
  timeout : r.policy.fetchTimeout ≠ 0
  entered : (s.trust.issuers.filterMap TrustPolicy.listed?).map (·.url) = s.trust.issuers.map (·.issuer)
  resolves : ∀ e ∈ s.trust.issuers, ∃ last b, s.trust.LastListed e.issuer last ∧ last.Binds b ∧
    r.trust.resolve? e.issuer = some ⟨last.issuer, b⟩
  realmless : ∀ e ∈ s.trust.issuers, ∀ realms,
    { r.trust with realms := realms }.resolve? e.issuer = r.trust.resolve? e.issuer

namespace Settings

theorem Valid.ofSettings {s : Settings} (h : s.Valid) : GateRules.ofSettings s = .ok
    ⟨.ofSettings s.trust, .ofSettings s.cache, .ofSettings s.trust,
      ⟨Text.trim s.service.space, Text.trim s.service.name⟩⟩ := by
  rw [GateRules.ofSettings, Identity.make_ok h.space h.name]
  rfl

/-- Settings that are loaded build a gate, which trusts what they list. -/
theorem honoured {env : Environment} {t : Text} {s : Settings} (h : load env t = .ok s) :
    ∃ rules, GateRules.ofSettings s = .ok rules ∧ rules.Honours s := by
  have hvalid := valid_of_load h
  have htenants := hvalid.hasTenant
  refine ⟨_, hvalid.ofSettings, ?_⟩
  exact
    { ttl := Nat.mul_le_mul_left 1000 hvalid.ttl
      timeout := Nat.mul_ne_zero (by decide) hvalid.timeout
      entered := TrustPolicy.map_url_listed htenants
      resolves := by
        intro e he
        obtain ⟨last, b, hlast, hb, hlookup⟩ := TrustPolicy.lookup_of_mem htenants he
        exact ⟨last, b, hlast, hb, TrustPolicy.resolve?_of_lookup hlookup⟩
      realmless := by
        intro e he realms
        obtain ⟨last, b, -, -, hlookup⟩ := TrustPolicy.lookup_of_mem htenants he
        rw [TrustPolicy.resolve?_of_lookup hlookup]
        exact TrustPolicy.resolve?_of_lookup hlookup }

def sharedText : Text :=
  "service:\n  namespace: p\n  name: s\ntrust:\n  issuers:\n    - issuer: https://$\x7bIDP\x7d/abc\n" ++
    "      tenant: old\n    - issuer: https://IDP.example/abc/\n      core: true\n      tenant: new\n" ++
    "      allowed_tenants:\n        - a\n  realms:\n    base_url: https://idp.example\n    tenants:\n" ++
    "      abc: realm\n"

def sharedSettings : Settings where
  service := ⟨"p", "s"⟩
  trust :=
    { issuers := [⟨"https://idp.example/abc", some "old", false, []⟩,
        ⟨"https://IDP.example/abc/", some "new", true, ["a"]⟩]
      realms := some ⟨"https://idp.example", [("abc", "realm")]⟩ }

theorem load_sharedText : load [("IDP", "idp.example")] sharedText = .ok sharedSettings := by
  decide +kernel

theorem honoured_shared : load [("IDP", "idp.example")] sharedText = .ok sharedSettings ∧
    (∃ rules, GateRules.ofSettings sharedSettings = .ok rules ∧ rules.Honours sharedSettings) ∧
      (TrustPolicy.ofSettings sharedSettings.trust).resolve? "https://idp.example/abc" =
        some ⟨"https://IDP.example/abc/", .core ["a"]⟩ :=
  ⟨load_sharedText, honoured load_sharedText, by decide⟩

end Settings

end BearerGate
