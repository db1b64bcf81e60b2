import BearerGate.Text.Basic

namespace BearerGate

structure ServiceSettings where
  space : Text
  name : Text
  deriving DecidableEq, Repr

structure AccessSettings where
  apiPatterns : List Text := []
  publicPaths : List Text := []
  deriving DecidableEq, Repr

structure IssuerSettings where
  issuer : Text
  tenant : Option Text := none
  core : Bool := false
  allowedTenants : List Text := []
  deriving DecidableEq, Repr

structure RealmSettings where
  baseUrl : Text
  tenants : List (Text × Text) := []
  deriving DecidableEq, Repr

structure TrustSettings where
  issuers : List IssuerSettings := []
  realms : Option RealmSettings := none
  acceptedAudiences : List Text := []
  requireAudience : Bool := true
  tenantClaim : Text := "tenant_id"
  clockSkewSeconds : Nat := 60
  deriving DecidableEq, Repr

/-- Spans in seconds; no background refresh when its period is zero. -/
structure CacheSettings where
  defaultTtl : Nat := 3600
  minTtl : Nat := 60
  maxTtl : Nat := 86400
  grace : Nat := 86400
  retryInterval : Nat := 30
  fetchTimeout : Nat := 10
  minRefreshInterval : Nat := 10
  backgroundRefresh : Nat := 0
  deriving DecidableEq, Repr

structure LoggingSettings where
  level : Text := "info"
  format : Text := "json"
  deriving DecidableEq, Repr

def defaultAddress : Text := "0.0.0.0:8080"

structure Settings where
  address : Text := defaultAddress
  service : ServiceSettings
  access : AccessSettings := {}
  trust : TrustSettings
  cache : CacheSettings := {}
  metricsEnabled : Bool := true
  logging : LoggingSettings := {}
  deriving DecidableEq, Repr

end BearerGate
