import BearerGate.Proofs.Text.Parts
import BearerGate.Principal

namespace BearerGate

def Word.IsSigned (n : Int) : Prop := -(half : Int) ≤ n ∧ n < half

instance (n : Int) : Decidable (Word.IsSigned n) := inferInstanceAs (Decidable (_ ∧ _))

namespace Raw

theorem int64?_isSigned {r : Raw} {n : Int} (h : int64? r = some n) : Word.IsSigned n := by
  rw [int64?] at h
  obtain ⟨m, -, h⟩ := Option.bind_eq_some_iff.mp h
  split at h
  · rename_i hm
    obtain rfl := Option.some.inj h
    exact hm
  · cases h

theorem optional?_int64?_isSigned {f : Fields} {i : Nat} {v : Option Int}
    (h : f.optional? i int64? = some v) {n : Int} (hn : v = some n) : Word.IsSigned n := by
  subst hn
  unfold Fields.optional? Fields.withDefault? at h
  split at h
  · cases h
  · rename_i r _
    simp only [nullable?] at h
    split at h
    · cases h
    · obtain ⟨m, hm, he⟩ := Option.map_eq_some_iff.mp h
      obtain rfl := Option.some.inj he
      exact int64?_isSigned hm

end Raw

theorem Claims.parse?_eq_some {payload : Bytes} {c : Claims} (h : parse? payload = some c) :
    ∃ object members values, Raw.parse? payload = some (.object object) ∧ Raw.names? object = some members ∧
      (fieldNames.mapM fun n => Raw.only? n members) = some values ∧
        Raw.Fields.optional? ⟨values, false⟩ 0 Raw.text? = some c.iss ∧
          Raw.Fields.optional? ⟨values, false⟩ 3 Raw.int64? = some c.exp ∧
            Raw.Fields.optional? ⟨values, false⟩ 4 Raw.int64? = some c.nbf ∧
              Raw.Fields.optional? ⟨values, false⟩ 5 Raw.int64? = some c.iat ∧
                buildExtra? members = some c.extra := by
  obtain ⟨r, hr, h⟩ := Option.bind_eq_some_iff.mp h
  simp only [ofRaw?] at h
  split at h
  · rename_i object
    simp only [Option.bind_eq_bind, Option.bind_eq_some_iff, Option.pure_def, Option.some.injEq] at h
    obtain ⟨members, hmembers, values, hvalues, iss, hiss, sub, -, aud, -, exp, hexp, nbf, hnbf, iat, hiat,
      scope, -, extra, hextra, rfl⟩ := h
    exact ⟨object, members, values, hr, hmembers, hvalues, hiss, hexp, hnbf, hiat, hextra⟩
  · cases h

theorem Claims.parse?_isSigned {b : Bytes} {c : Claims} (h : parse? b = some c) :
    (∀ n, c.exp = some n → Word.IsSigned n) ∧ ∀ n, c.nbf = some n → Word.IsSigned n := by
  obtain ⟨object, members, values, -, -, -, -, hexp, hnbf, -, -⟩ := parse?_eq_some h
  exact ⟨fun n hn => Raw.optional?_int64?_isSigned hexp hn, fun n hn => Raw.optional?_int64?_isSigned hnbf hn⟩

namespace Validation

variable {i : TrustedIssuer} {p : ValidationPolicy} {recordIssuer : Text} {service : Identity} {c : Claims}
  {now : Int} {v : Validated}

theorem skew_nonneg (p : ValidationPolicy) : 0 ≤ skew p := by
  have hmax : (0 : Int) ≤ maxInt := by decide
  rw [skew]
  omega

theorem skew_le (p : ValidationPolicy) : skew p ≤ p.clockSkew := Int.min_le_left _ _

theorem expiry_ok (h : expiry p c now = .ok ()) (hs : ∀ n, c.exp = some n → Word.IsSigned n) :
    ∃ exp, c.exp = some exp ∧ now < exp + p.clockSkew := by
  rw [expiry] at h
  split at h
  · cases h
  · rename_i exp he
    split at h
    · cases h
    · rename_i hlt
      obtain ⟨hlow, -⟩ := hs exp he
      have hskew := skew_nonneg p
      have hle := skew_le p
      refine ⟨exp, he, ?_⟩
      -- Saturation at the upper end only lets a token expire earlier.
      rw [saturate] at hlt
      omega

theorem expiry_of_lt {exp : Int} (he : c.exp = some exp) (hs : Word.IsSigned exp) (h : now < exp) :
    expiry p c now = .ok () := by
  obtain ⟨-, hhigh⟩ := hs
  have hskew := skew_nonneg p
  have hlate : ¬saturate (exp + skew p) ≤ now := by
    rw [saturate, maxInt]
    omega
  simp only [expiry, he, hlate, if_false]

theorem notBefore_ok (h : notBefore p c now = .ok ()) (hs : ∀ n, c.nbf = some n → Word.IsSigned n) :
    ∀ nbf, c.nbf = some nbf → nbf - p.clockSkew ≤ now := by
  intro nbf hn
  simp only [notBefore, hn] at h
  split at h
  · cases h
  · rename_i hle
    obtain ⟨-, hhigh⟩ := hs nbf hn
    have hskew := skew_nonneg p
    have hbound := skew_le p
    unfold saturate maxInt at hle
    omega

theorem audienceAccepted_iff : audienceAccepted p service c = true ↔
    ∃ a ∈ c.aud, a = service.urn ∨ a ∈ p.acceptedAudiences := by
  simp [audienceAccepted]

/-- The tenant that a token acts for is one that its issuer may speak for; only a core issuer may leave
it open. -/
theorem tenant_ok {t : Option Text} (h : tenant i p c = .ok t) :
    (∀ id, t = some id → i.acceptsTenant id = true) ∧ (t = none → i.isCore = true) := by
  have hbound : (∀ id, i.boundTenant? = some id → i.acceptsTenant id = true) ∧
      (i.boundTenant? = none → i.isCore = true) := by
    unfold TrustedIssuer.boundTenant? TrustedIssuer.acceptsTenant TrustedIssuer.isCore
    cases i.binding with
    | core allowed => simp
    | tenant id => simp
  rw [tenant] at h
  split at h
  · obtain rfl := Except.ok.inj h
    exact hbound
  · obtain rfl := Except.ok.inj h
    exact hbound
  · split at h
    · rename_i hid
      obtain rfl := Except.ok.inj h
      refine ⟨fun id he => ?_, fun he => nomatch he⟩
      obtain rfl := Option.some.inj he
      exact hid
    · cases h
  · cases h

theorem subject_ok {t : Text} (h : subject c = .ok t) :
    ∃ sub, c.sub = some sub ∧ t = Text.trim sub ∧ t ≠ [] := by
  rw [subject] at h
  split at h
  · rename_i x r he
    obtain ⟨sub, hsub, ht⟩ := Option.map_eq_some_iff.mp he
    obtain rfl := Except.ok.inj h
    exact ⟨sub, hsub, ht.symm, List.cons_ne_nil x r⟩
  · cases h

structure Passed (i : TrustedIssuer) (p : ValidationPolicy) (recordIssuer : Text) (service : Identity)
    (c : Claims) (now : Int) (v : Validated) : Prop where
  claims : v.claims = c
  iss : c.iss = some recordIssuer
  expiry : expiry p c now = .ok ()
  notBefore : notBefore p c now = .ok ()
  audience : p.requireAudience = true → audienceAccepted p service c = true
  tenant : tenant i p c = .ok v.tenant
  subject : subject c = .ok v.subject

theorem check_passed (h : check i p recordIssuer service c now = .ok v) :
    Passed i p recordIssuer service c now v := by
  rw [check] at h
  simp only [bind, Except.bind, pure, Except.pure, throw, throwThe, MonadExceptOf.throw] at h
  split at h
  · cases h
  rename_i hiss
  split at h
  · cases h
  rename_i hexp
  split at h
  · cases h
  rename_i hnbf
  split at h
  · cases h
  rename_i haud
  split at h
  · cases h
  rename_i t ht
  split at h
  · cases h
  rename_i sub hsub
  obtain rfl := Except.ok.inj h
  exact
    { claims := rfl
      iss := Decidable.not_not.mp hiss
      expiry := hexp
      notBefore := hnbf
      audience := by simpa using haud
      tenant := ht
      subject := hsub }

theorem check_of_passed (h : Passed i p recordIssuer service c now v) :
    check i p recordIssuer service c now = .ok v := by
  obtain ⟨claims, subject, tenant⟩ := v
  obtain rfl : claims = c := h.claims
  have haudience : (p.requireAudience && !audienceAccepted p service claims) = false := by
    rw [Bool.and_eq_false_imp, Bool.not_eq_false']
    exact h.audience
  simp only [check, h.iss, h.expiry, h.notBefore, haudience, h.tenant, h.subject, bind, Except.bind, pure,
    Except.pure, ne_eq, not_true_eq_false, Bool.false_eq_true, if_false]

theorem check_untenanted {exp : Int} {sub : Text} (hiss : c.iss = some recordIssuer) (hexp : c.exp = some exp)
    (hs : Word.IsSigned exp) (hlt : now < exp) (hnbf : c.nbf = none) (haud : service.urn ∈ c.aud)
    (htenant : c.extra.lookup p.tenantClaim = none) (hsub : subject c = .ok sub) :
    check i p recordIssuer service c now = .ok ⟨c, sub, i.boundTenant?⟩ := by
  apply check_of_passed
  exact
    { claims := rfl
      iss := hiss
      expiry := expiry_of_lt hexp hs hlt
      notBefore := by simp only [Validation.notBefore, hnbf]
      audience := fun _ => audienceAccepted_iff.mpr ⟨_, haud, .inl rfl⟩
      tenant := by simp only [Validation.tenant, htenant]
      subject := hsub }

end Validation

end BearerGate
