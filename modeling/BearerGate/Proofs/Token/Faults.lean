import BearerGate.Proofs.Token.Validated

namespace BearerGate

/-- The faults in the order in which the claims are checked for them. -/
def ClaimFault.order : List ClaimFault :=
  [issuerMismatch, missingExpiry, expired, notYetValid, audience, tenantMismatch, missingSubject]

theorem ClaimFault.mem_order (f : ClaimFault) : f ∈ order := by
  cases f <;> decide

namespace Validation

section Faults

variable {α β : Type} {bad : ClaimFault → Bool} {f : ClaimFault} {fs gs : List ClaimFault}

def fault? : Except ClaimFault α → Option ClaimFault
  | .ok _ => none
  | .error f => some f

theorem fault?_eq_some_iff {e : Except ClaimFault α} : fault? e = some f ↔ e = .error f := by
  cases e <;> simp [fault?]

theorem fault?_eq_none_iff {e : Except ClaimFault α} : fault? e = none ↔ ∃ a, e = .ok a := by
  cases e <;> simp [fault?]

theorem fault?_bind {e : Except ClaimFault α} {k : α → Except ClaimFault β} (he : fault? e = fs.find? bad)
    (hk : ∀ a, fault? (k a) = gs.find? bad) : fault? (e >>= k) = (fs ++ gs).find? bad := by
  rw [List.find?_append, ← he]
  cases e with
  | error f => rfl
  | ok a => exact hk a

theorem fault?_guard {q : Prop} [Decidable q] {k : Unit → Except ClaimFault β} (hq : q ↔ bad f = true)
    (hk : fault? (k ()) = fs.find? bad) :
    fault? (if q then throw f >>= k else k ()) = (f :: fs).find? bad := by
  rw [List.find?_cons]
  split
  · rename_i h
    rw [hq.mp h]
    rfl
  · rename_i h
    rw [Bool.eq_false_iff.mpr (mt hq.mpr h)]
    exact hk

end Faults

/-- What the claims have to satisfy lest they have a fault. The times are compared as numbers without
bounds. -/
def Meets (i : TrustedIssuer) (p : ValidationPolicy) (recordIssuer : Text) (service : Identity) (c : Claims)
    (now : Int) : ClaimFault → Prop
  | .issuerMismatch => c.iss = some recordIssuer
  | .missingExpiry => c.exp ≠ none
  | .expired => ∀ exp ∈ c.exp, now < exp + min (p.clockSkew : Int) maxInt
  | .notYetValid => ∀ nbf ∈ c.nbf, nbf - min (p.clockSkew : Int) maxInt ≤ now
  | .audience => p.requireAudience = true → ∃ a ∈ c.aud, a = service.urn ∨ a ∈ p.acceptedAudiences
  | .tenantMismatch => ∀ v ∈ c.extra.lookup p.tenantClaim,
      v = .null ∨ ∃ id ∈ v.asText?, i.acceptsTenant id = true
  | .missingSubject => ∃ sub ∈ c.sub, Text.trim sub ≠ []

def claimedTenant? (p : ValidationPolicy) (c : Claims) : Option Text :=
  (c.extra.lookup p.tenantClaim).bind Json.asText?

variable {i : TrustedIssuer} {p : ValidationPolicy} {recordIssuer : Text} {service : Identity} {c : Claims}
  {now : Int}

instance (f : ClaimFault) : Decidable (Meets i p recordIssuer service c now f) :=
  match f with
  | .issuerMismatch => inferInstanceAs (Decidable (c.iss = some recordIssuer))
  | .missingExpiry => inferInstanceAs (Decidable (c.exp ≠ none))
  | .expired => inferInstanceAs (Decidable (∀ exp ∈ c.exp, now < exp + min (p.clockSkew : Int) maxInt))
  | .notYetValid => inferInstanceAs (Decidable (∀ nbf ∈ c.nbf, nbf - min (p.clockSkew : Int) maxInt ≤ now))
  | .audience => inferInstanceAs (Decidable (p.requireAudience = true →
      ∃ a ∈ c.aud, a = service.urn ∨ a ∈ p.acceptedAudiences))
  | .tenantMismatch => inferInstanceAs (Decidable (∀ v ∈ c.extra.lookup p.tenantClaim,
      v = .null ∨ ∃ id ∈ v.asText?, i.acceptsTenant id = true))
  | .missingSubject => inferInstanceAs (Decidable (∃ sub ∈ c.sub, Text.trim sub ≠ []))

/-- Between the ends of the numbers of 64 bits a time does not see whether another one was saturated. -/
theorem saturate_le_iff {n : Int} (hlow : -Word.half ≤ now) (hhigh : now < maxInt) :
    saturate n ≤ now ↔ n ≤ now := by
  rw [saturate]
  omega

theorem lt_saturate_iff {n : Int} (hlow : -Word.half ≤ now) (hhigh : now < maxInt) :
    now < saturate n ↔ now < n := by
  rw [← Int.not_le, saturate_le_iff hlow hhigh, Int.not_le]

section Checks

variable (i p recordIssuer service c now)

def lacks (f : ClaimFault) : Bool := !decide (Meets i p recordIssuer service c now f)

theorem lacks_iff {f : ClaimFault} :
    lacks i p recordIssuer service c now f = true ↔ ¬Meets i p recordIssuer service c now f := by
  simp [lacks]

theorem fault?_expiry (hlow : -Word.half ≤ now) (hhigh : now < maxInt) :
    fault? (expiry p c now) = [.missingExpiry, .expired].find? (lacks i p recordIssuer service c now) := by
  cases he : c.exp with
  | none => simp [expiry, lacks, Meets, fault?, he]
  | some exp =>
      by_cases h : exp + min (p.clockSkew : Int) maxInt ≤ now <;>
        simp [expiry, lacks, Meets, fault?, he, skew, saturate_le_iff hlow hhigh, h]

theorem fault?_notBefore (hlow : -Word.half ≤ now) (hhigh : now < maxInt) :
    fault? (notBefore p c now) = [.notYetValid].find? (lacks i p recordIssuer service c now) := by
  cases hn : c.nbf with
  | none => simp [notBefore, lacks, Meets, fault?, hn]
  | some nbf =>
      have hmeets : Meets i p recordIssuer service c now .notYetValid ↔ ¬now < saturate (nbf - skew p) := by
        rw [lt_saturate_iff hlow hhigh, Int.not_lt, Meets, hn]
        exact ⟨fun h => h nbf rfl, fun h _ he => Option.some.inj he ▸ h⟩
      by_cases h : now < saturate (nbf - skew p) <;> simp [notBefore, lacks, fault?, hn, hmeets, h]

theorem fault?_tenant :
    fault? (tenant i p c) = [.tenantMismatch].find? (lacks i p recordIssuer service c now) := by
  cases ht : c.extra.lookup p.tenantClaim with
  | none => simp [tenant, lacks, Meets, fault?, ht]
  | some v =>
      cases v with
      | string id =>
          cases ha : i.acceptsTenant id <;> simp [tenant, lacks, Meets, fault?, ht, Json.asText?, ha]
      | null | bool | int | real | array | object => simp [tenant, lacks, Meets, fault?, ht, Json.asText?]

theorem fault?_subject :
    fault? (subject c) = [.missingSubject].find? (lacks i p recordIssuer service c now) := by
  cases hs : c.sub with
  | none => simp [subject, lacks, Meets, fault?, hs]
  | some sub => cases ht : Text.trim sub <;> simp [subject, lacks, Meets, fault?, hs, ht]

theorem fault?_check (hlow : -Word.half ≤ now) (hhigh : now < maxInt) :
    fault? (check i p recordIssuer service c now) =
      ClaimFault.order.find? (lacks i p recordIssuer service c now) := by
  have hissuer : c.iss ≠ some recordIssuer ↔ lacks i p recordIssuer service c now .issuerMismatch = true := by
    rw [lacks_iff, Meets]
  have haudience : (p.requireAudience && !audienceAccepted p service c) = true ↔
      lacks i p recordIssuer service c now .audience = true := by
    rw [lacks_iff, Meets, Classical.not_imp, ← audienceAccepted_iff, Bool.and_eq_true, Bool.not_eq_true',
      Bool.not_eq_true]
  refine fault?_guard (k := fun _ => _) hissuer ?_
  refine fault?_bind (fault?_expiry i p recordIssuer service c now hlow hhigh) fun _ => ?_
  refine fault?_bind (fault?_notBefore i p recordIssuer service c now hlow hhigh) fun _ => ?_
  refine fault?_guard (k := fun _ => _) haudience ?_
  refine fault?_bind (fault?_tenant i p recordIssuer service c now) fun _ => ?_
  exact fault?_bind (fault?_subject i p recordIssuer service c now) fun _ => rfl

end Checks

theorem tenant_eq_of_ok {t : Option Text} (h : tenant i p c = .ok t) :
    t = (claimedTenant? p c).or i.boundTenant? := by
  rw [tenant] at h
  split at h
  · rename_i hl
    simpa [claimedTenant?, hl, eq_comm] using h
  · rename_i hl
    simpa [claimedTenant?, hl, Json.asText?, eq_comm] using h
  · rename_i id hl
    split at h
    · simpa [claimedTenant?, hl, Json.asText?, eq_comm] using h
    · cases h
  · cases h

theorem check_values {v : Validated} (h : check i p recordIssuer service c now = .ok v) :
    v.claims = c ∧ c.sub.map Text.trim = some v.subject ∧
      v.tenant = (claimedTenant? p c).or i.boundTenant? := by
  have hpassed := check_passed h
  obtain ⟨sub, hsub, hsubject, -⟩ := subject_ok hpassed.subject
  exact ⟨hpassed.claims, by rw [hsub, hsubject, Option.map_some], tenant_eq_of_ok hpassed.tenant⟩

theorem check_eq_ok_iff (hlow : -Word.half ≤ now) (hhigh : now < maxInt) {v : Validated} :
    check i p recordIssuer service c now = .ok v ↔
      (∀ f, Meets i p recordIssuer service c now f) ∧ v.claims = c ∧ c.sub.map Text.trim = some v.subject ∧
        v.tenant = (claimedTenant? p c).or i.boundTenant? := by
  have hfault := fault?_check i p recordIssuer service c now hlow hhigh
  constructor
  · intro h
    rw [h, fault?, eq_comm, List.find?_eq_none] at hfault
    exact ⟨fun f => Classical.not_not.mp (mt (lacks_iff ..).mpr (hfault f f.mem_order)), check_values h⟩
  · rintro ⟨hall, hclaims, hsubject, htenant⟩
    have hnone : ClaimFault.order.find? (lacks i p recordIssuer service c now) = none :=
      List.find?_eq_none.mpr fun f _ hf => (lacks_iff ..).mp hf (hall f)
    obtain ⟨w, hw⟩ := fault?_eq_none_iff.mp (hfault.trans hnone)
    obtain ⟨hclaims', hsubject', htenant'⟩ := check_values hw
    have hsame : w = v := by
      obtain ⟨_, _, _⟩ := v
      obtain ⟨_, _, _⟩ := w
      simp_all
    rw [hw, hsame]

theorem check_eq_error_iff (hlow : -Word.half ≤ now) (hhigh : now < maxInt) {f : ClaimFault} :
    check i p recordIssuer service c now = .error f ↔
      ¬Meets i p recordIssuer service c now f ∧ ∃ earlier later, ClaimFault.order = earlier ++ f :: later ∧
        ∀ g ∈ earlier, Meets i p recordIssuer service c now g := by
  rw [← fault?_eq_some_iff, fault?_check i p recordIssuer service c now hlow hhigh,
    List.find?_eq_some_iff_append]
  simp [lacks]

/-- Claims are accepted exactly if they lack nothing, for their own subject and for the tenant that they name
or that their issuer is bound to. Otherwise the fault is the first one in the order of the checks. -/
theorem check_exact (hlow : -Word.half ≤ now) (hhigh : now < maxInt) :
    (∀ v, check i p recordIssuer service c now = .ok v ↔
      (∀ f, Meets i p recordIssuer service c now f) ∧ v.claims = c ∧ c.sub.map Text.trim = some v.subject ∧
        v.tenant = (claimedTenant? p c).or i.boundTenant?) ∧
    ∀ f, check i p recordIssuer service c now = .error f ↔
      ¬Meets i p recordIssuer service c now f ∧ ∃ earlier later, ClaimFault.order = earlier ++ f :: later ∧
        ∀ g ∈ earlier, Meets i p recordIssuer service c now g :=
  ⟨fun _ => check_eq_ok_iff hlow hhigh, fun _ => check_eq_error_iff hlow hhigh⟩

def widest : ValidationPolicy := { clockSkew := Word.size - 1 }

def timeless (aud : List Text) (sub : Option Text) : Claims where
  iss := some "https://idp.example/abc"
  sub := sub
  aud := aud
  exp := some 5
  nbf := some maxInt
  iat := none
  scope := none
  extra := [("tenant_id".toList, .null)]

theorem check_exact_timeless :
    (-Word.half ≤ maxInt - 1 ∧ maxInt - 1 < maxInt) ∧
      check ⟨"https://idp.example/abc", .tenant "t"⟩ widest "https://idp.example/abc" ⟨"p", "s"⟩
        (timeless ["urn:ads:p:s".toList] (some " u")) (maxInt - 1) =
          .ok ⟨timeless ["urn:ads:p:s".toList] (some " u"), "u", some "t"⟩ ∧
      check ⟨"https://idp.example/abc", .tenant "t"⟩ widest "https://idp.example/abc" ⟨"p", "s"⟩
        (timeless [] none) (maxInt - 1) = .error .audience := by
  have hlow : -Word.half ≤ maxInt - 1 := by decide
  have hhigh : maxInt - 1 < maxInt := by decide
  refine ⟨⟨hlow, hhigh⟩, ((check_exact hlow hhigh).1 _).mpr ⟨?_, rfl, rfl, rfl⟩,
    ((check_exact hlow hhigh).2 _).mpr ⟨by decide, ClaimFault.order.take 4, ClaimFault.order.drop 5, rfl, ?_⟩⟩
  · intro f
    cases f <;> decide
  · decide

/-- The clock cannot be at the very end: there a sum that was saturated is no longer above it. -/
example : Meets ⟨"https://idp.example/abc", .tenant "t"⟩ widest "https://idp.example/abc" ⟨"p", "s"⟩
      (timeless [] none) maxInt .expired ∧
    expiry widest (timeless [] none) maxInt = .error .expired := by
  decide

end Validation

end BearerGate
