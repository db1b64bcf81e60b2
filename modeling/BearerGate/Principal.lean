import BearerGate.Assoc
import BearerGate.Validation

namespace BearerGate

structure Principal where
  subject : Text
  issuer : Text
  tenant : Option Text
  isCore : Bool
  scopes : List Text
  realmRoles : List Text
  serviceRoles : List Text
  claims : List (Text × Json)
  deriving DecidableEq, Repr

namespace Principal

def roles (access : Json) : List Text :=
  match access.member? "roles" with
  | some r => r.items.filterMap Json.asText?
  | none => []

def make (v : Validated) (i : TrustedIssuer) (service : Identity) : Principal where
  subject := v.subject
  issuer := i.url
  tenant := v.tenant
  isCore := i.isCore
  scopes := (v.claims.scope.map Text.words).getD []
  realmRoles := ((v.claims.extra.lookup "realm_access".toList).map roles).getD []
  serviceRoles :=
    (((v.claims.extra.lookup "resource_access".toList).bind (·.member? service.urn)).map roles).getD []
  claims := Assoc.erase "resource_access".toList (Assoc.erase "realm_access".toList v.claims.extra)

def hasScope (p : Principal) (scope : Text) : Bool := p.scopes.any (· = scope)

def hasRole (p : Principal) (role : Text) : Bool :=
  p.serviceRoles.any (· = role) || p.realmRoles.any (· = role)

end Principal

end BearerGate
