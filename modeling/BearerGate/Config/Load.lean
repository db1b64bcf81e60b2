import BearerGate.Config.Environment
import BearerGate.Config.Yaml

namespace BearerGate

namespace Settings

inductive Fault
  | emptyPart (field : Text)
  | colonInPart (field text : Text)
  | noIssuer
  | issuerUrl (url : Text)
  | noTenant (url : Text)
  | realmUrl (url : Text)
  | emptyTenantClaim
  | ttlOrder (maxTtl minTtl : Nat)
  | zeroTimeout
  | logFormat (format : Text)
  deriving DecidableEq, Repr

def Fault.message (f : Fault) : Text :=
  "Invalid configuration: " ++
    match f with
    | .emptyPart field => field ++ " cannot be empty"
    | .colonInPart field t => field ++ " '" ++ t ++ "' cannot contain ':'"
    | .noIssuer => "At least one trusted issuer or a realm rule must be configured"
    | .issuerUrl url => "Invalid issuer '" ++ url ++ "': must start with http:// or https://"
    | .noTenant url => "Issuer '" ++ url ++ "' must name a tenant or be marked core"
    | .realmUrl url => "Invalid realm base_url '" ++ url ++ "': must start with http:// or https://"
    | .emptyTenantClaim => "trust.tenant_claim cannot be empty"
    | .ttlOrder maxTtl minTtl =>
      "cache.max_ttl_seconds (" ++ Text.ofNat maxTtl ++
        ") must not be less than cache.min_ttl_seconds (" ++ Text.ofNat minTtl ++ ")"
    | .zeroTimeout => "cache.fetch_timeout_seconds must be greater than zero"
    | .logFormat t => "Invalid logging format '" ++ t ++ "': must be 'json' or 'pretty'"

def isHttpUrl (url : Text) : Bool :=
  "http://".toList.isPrefixOf url || "https://".toList.isPrefixOf url

def checkPart (field t : Text) : Except Fault Unit :=
  if Text.trim t = [] then .error (.emptyPart field)
  else if ':' ∈ t then .error (.colonInPart field t)
  else .ok ()

def checkIssuer (i : IssuerSettings) : Except Fault Unit :=
  if !isHttpUrl i.issuer then .error (.issuerUrl i.issuer)
  else if !i.core && i.tenant.all (· = []) then .error (.noTenant i.issuer)
  else .ok ()

def checkIssuers : List IssuerSettings → Except Fault Unit
  | [] => .ok ()
  | i :: r => do checkIssuer i; checkIssuers r

def checkTrust (t : TrustSettings) : Except Fault Unit := do
  if t.issuers.isEmpty && t.realms.isNone then throw .noIssuer
  checkIssuers t.issuers
  match t.realms with
  | some r => if !isHttpUrl r.baseUrl then throw (.realmUrl r.baseUrl)
  | none => pure ()
  if Text.trim t.tenantClaim = [] then throw .emptyTenantClaim

def checkCache (c : CacheSettings) : Except Fault Unit := do
  if c.maxTtl < c.minTtl then throw (.ttlOrder c.maxTtl c.minTtl)
  if c.fetchTimeout = 0 then throw .zeroTimeout

def checkLogging (l : LoggingSettings) : Except Fault Unit :=
  if l.format = "json".toList ∨ l.format = "pretty".toList then .ok ()
  else .error (.logFormat l.format)

def check (s : Settings) : Except Fault Unit := do
  checkPart "service.namespace" s.service.space
  checkPart "service.name" s.service.name
  checkTrust s.trust
  checkCache s.cache
  checkLogging s.logging

inductive LoadFault
  | parse
  | invalid (fault : Fault)
  deriving DecidableEq, Repr

def load (env : Environment) (t : Text) : Except LoadFault Settings := do
  let some s := (Yaml.Node.parse? (env.expand t)).bind Spelling.yaml.settings? | throw .parse
  match s.check with
  | .ok () => return s
  | .error f => throw (.invalid f)

end Settings

end BearerGate
