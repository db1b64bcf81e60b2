import BearerGate.Identity
import BearerGate.Issuer.Record
import BearerGate.Token.Claims
import BearerGate.Trust

namespace BearerGate

/-- The first condition on the claims that fails. -/
inductive ClaimFault
  | issuerMismatch
  | expired
  | missingExpiry
  | notYetValid
  | audience
  | tenantMismatch
  | missingSubject
  deriving DecidableEq, Repr

def ClaimFault.name : ClaimFault → Text
  | issuerMismatch => "issuer_mismatch"
  | expired => "expired"
  | missingExpiry => "missing_expiry"
  | notYetValid => "not_yet_valid"
  | audience => "audience"
  | tenantMismatch => "tenant_mismatch"
  | missingSubject => "missing_subject"

structure ValidationPolicy where
  clockSkew : Nat := 60
  acceptedAudiences : List Text := []
  requireAudience : Bool := true
  tenantClaim : Text := "tenant_id"
  deriving DecidableEq, Repr

def ValidationPolicy.ofSettings (s : TrustSettings) : ValidationPolicy :=
  ⟨s.clockSkewSeconds, s.acceptedAudiences, s.requireAudience, s.tenantClaim⟩

structure Validated where
  claims : Claims
  subject : Text
  tenant : Option Text
  deriving DecidableEq, Repr

namespace Validation

def maxInt : Int := Word.half - 1

def saturate (n : Int) : Int := max (-Word.half) (min n maxInt)

def skew (p : ValidationPolicy) : Int := min p.clockSkew maxInt

def audienceAccepted (p : ValidationPolicy) (service : Identity) (c : Claims) : Bool :=
  c.aud.any fun a => a = service.urn || p.acceptedAudiences.any (· = a)

def tenant (i : TrustedIssuer) (p : ValidationPolicy) (c : Claims) :
    Except ClaimFault (Option Text) :=
  match c.extra.lookup p.tenantClaim with
  | none | some .null => .ok i.boundTenant?
  | some (.string id) => if i.acceptsTenant id then .ok (some id) else .error .tenantMismatch
  | some _ => .error .tenantMismatch

def expiry (p : ValidationPolicy) (c : Claims) (now : Int) : Except ClaimFault Unit :=
  match c.exp with
  | none => .error .missingExpiry
  | some exp => if saturate (exp + skew p) ≤ now then .error .expired else .ok ()

def notBefore (p : ValidationPolicy) (c : Claims) (now : Int) : Except ClaimFault Unit :=
  match c.nbf with
  | some nbf => if now < saturate (nbf - skew p) then .error .notYetValid else .ok ()
  | none => .ok ()

def subject (c : Claims) : Except ClaimFault Text :=
  match c.sub.map Text.trim with
  | some (x :: r) => .ok (x :: r)
  | _ => .error .missingSubject

/-- Checks claims whose signature is verified, at a Unix time in seconds. -/
def check (i : TrustedIssuer) (p : ValidationPolicy) (recordIssuer : Text) (service : Identity)
    (c : Claims) (now : Int) : Except ClaimFault Validated := do
  if c.iss ≠ some recordIssuer then throw .issuerMismatch
  expiry p c now
  notBefore p c now
  if p.requireAudience && !audienceAccepted p service c then throw .audience
  let tenant ← tenant i p c
  let subject ← subject c
  return ⟨c, subject, tenant⟩

end Validation

end BearerGate
