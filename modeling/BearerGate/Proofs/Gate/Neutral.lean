import BearerGate.Proofs.Gate.Uncached
import BearerGate.Proofs.Token.Neutral
import BearerGate.Proofs.Token.Validated

namespace BearerGate.Neutral

open Crypto

def document (url : Text) : Document where
  metadata := ⟨url, none, none, [], []⟩
  jwks := [⟨"OKP", none, none, none, none, none, some "Ed25519",
    some (Base64Url.encode Ed25519.neutralKey), none⟩]
  maxAge := none

def source (url : Text) : Except FetchFault Document := .ok (document url)

theorem ofJwks_document (url : Text) : KeySet.ofJwks (document url).jwks = [key] := by
  have h : KeySet.ofJwks (document []).jwks = [key] := by decide +kernel
  exact h

theorem outcome_document (p : CachePolicy) (now : Millis) (url : Text) (generation : Nat) :
    ∃ r, Cache.outcome p now url generation (.ok (document url)) = .ok r := by
  have hurl : (document url).metadata.issuer = url := rfl
  simp only [Cache.outcome, Record.build, ofJwks_document, hurl, ne_eq, not_true_eq_false, if_false]
  exact ⟨_, rfl⟩

variable {rules : GateRules} {iss : Text} {r : Record} {e i : TrustedIssuer}

theorem selectKey_token {url : Text} (hr : Record.BuiltFrom url (document url) r) (iss aud : Text) :
    r.selectKey (unverified iss aud) = .ok key := by
  rw [Record.selectKey, hr.metadata, hr.keys, ofJwks_document]
  rfl

def principal (e : TrustedIssuer) (service : Identity) (iss : Text) : Principal :=
  Principal.make ⟨claims iss service.urn, "u", e.boundTenant?⟩ e service

theorem check_claims (e : TrustedIssuer) (p : ValidationPolicy) (service : Identity) (iss : Text) :
    Validation.check e p iss service (claims iss service.urn) 0 =
      .ok ⟨claims iss service.urn, "u", e.boundTenant?⟩ :=
  Validation.check_untenanted rfl rfl (by decide) (by decide) rfl (List.mem_singleton_self _) rfl rfl

/-- The token is accepted wherever it is read, for the tenant of the engine that it gets. -/
theorem uncached_token {engine : Text → Option TrustedIssuer} (h : Text.trim iss ≠ [])
    (he : engine (Text.trim iss) = some e) (hi : rules.trust.resolve? e.url = some i) (hurl : i.url = iss) :
    Gate.uncached rules source engine 0 (token iss rules.service.urn) =
      .ok (principal e rules.service iss) := by
  obtain ⟨r, hr⟩ := outcome_document rules.policy 0 i.url 0
  obtain ⟨d, hd, hbuilt⟩ := Cache.outcome_ok hr
  obtain rfl := Except.ok.inj hd
  have hissuer : r.issuer = iss := hbuilt.issuer.trans hurl
  have hissuer' : (unverified iss rules.service.urn).issuer = Text.trim iss := rfl
  simp only [Gate.uncached, source, parse_token h, hissuer', he, hi, hr, selectKey_token hbuilt, Gate.conclude,
    verify_token, hissuer, check_claims, principal]

/-- The principal shows how the issuer is bound, but for the tenants that a core issuer serves. -/
theorem eq_of_principal_eq {j : TrustedIssuer} {tenant : Text} {service : Identity}
    (hi : i.binding = .tenant tenant) (hurl : i.url = j.url)
    (h : principal i service iss = principal j service iss) : i = j := by
  obtain ⟨url, binding⟩ := i
  obtain ⟨url', binding'⟩ := j
  subst hi hurl
  have hcore := congrArg Principal.isCore h
  have htenant := congrArg Principal.tenant h
  cases binding' with
  | core allowed => cases hcore
  | tenant id =>
      obtain rfl := Option.some.inj htenant
      rfl

end BearerGate.Neutral
