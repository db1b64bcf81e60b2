import BearerGate.Assoc
import BearerGate.Config.Settings
import BearerGate.Json.Decode

namespace BearerGate

structure Spelling (ν : Type) where
  fields? : List Text → ν → Option (List (Option ν))
  items? : ν → Option (List ν)
  entries? : ν → Option (List (Text × ν))
  text? : ν → Option Text
  nat? : ν → Option Nat
  flag? : ν → Option Bool
  absent? : ν → Option Bool

namespace Spelling

variable {ν α : Type} (n : Spelling ν)

def json : Spelling Raw where
  fields? names r := (r.fields? names).map (·.values)
  items? := Raw.list? some
  entries?
    | .object members => (Raw.names? members).map Assoc.ofList
    | _ => none
  text? := Raw.text?
  nat? := Raw.nat64?
  flag? := Raw.flag?
  absent?
    | .null => some true
    | _ => some false

def field? (fields : List (Option ν)) (i : Nat) : Option ν := (fields[i]?).join

def required? (fields : List (Option ν)) (i : Nat) (f : ν → Option α) : Option α :=
  (field? fields i).bind f

def orElse? (fields : List (Option ν)) (i : Nat) (default : α) (f : ν → Option α) : Option α :=
  match field? fields i with
  | none => some default
  | some v => f v

def list? (f : ν → Option α) (v : ν) : Option (List α) := do (← n.items? v).mapM f

def nullable? (f : ν → Option α) (v : ν) : Option (Option α) :=
  match n.absent? v with
  | none => none
  | some true => some none
  | some false => (f v).map some

def textMap? (v : ν) : Option (List (Text × Text)) := do
  Assoc.ofList <$> (← n.entries? v).mapM fun (k, v) => (n.text? v).map (k, ·)

def issuer? (v : ν) : Option IssuerSettings := do
  let f ← n.fields? ["issuer", "tenant", "core", "allowed_tenants"] v
  return {
    issuer := ← required? f 0 n.text?
    tenant := ← orElse? f 1 none (n.nullable? n.text?)
    core := ← orElse? f 2 false n.flag?
    allowedTenants := ← orElse? f 3 [] (n.list? n.text?) }

def realms? (v : ν) : Option RealmSettings := do
  let f ← n.fields? ["base_url", "tenants"] v
  return {
    baseUrl := ← required? f 0 n.text?
    tenants := ← orElse? f 1 [] n.textMap? }

def trust? (v : ν) : Option TrustSettings := do
  let f ← n.fields? ["issuers", "realms", "accepted_audiences", "require_audience", "tenant_claim",
    "clock_skew_seconds"] v
  let d : TrustSettings := {}
  return {
    issuers := ← orElse? f 0 [] (n.list? n.issuer?)
    realms := ← orElse? f 1 none (n.nullable? n.realms?)
    acceptedAudiences := ← orElse? f 2 [] (n.list? n.text?)
    requireAudience := ← orElse? f 3 d.requireAudience n.flag?
    tenantClaim := ← orElse? f 4 d.tenantClaim n.text?
    clockSkewSeconds := ← orElse? f 5 d.clockSkewSeconds n.nat? }

def service? (v : ν) : Option ServiceSettings := do
  let f ← n.fields? ["namespace", "name"] v
  return ⟨← required? f 0 n.text?, ← required? f 1 n.text?⟩

def access? (v : ν) : Option AccessSettings := do
  let f ← n.fields? ["api_patterns", "public_paths"] v
  return ⟨← orElse? f 0 [] (n.list? n.text?), ← orElse? f 1 [] (n.list? n.text?)⟩

def cache? (v : ν) : Option CacheSettings := do
  let f ← n.fields? ["default_ttl_seconds", "min_ttl_seconds", "max_ttl_seconds", "grace_seconds",
    "retry_interval_seconds", "fetch_timeout_seconds", "min_refresh_interval_seconds",
    "background_refresh_seconds"] v
  let d : CacheSettings := {}
  return {
    defaultTtl := ← orElse? f 0 d.defaultTtl n.nat?
    minTtl := ← orElse? f 1 d.minTtl n.nat?
    maxTtl := ← orElse? f 2 d.maxTtl n.nat?
    grace := ← orElse? f 3 d.grace n.nat?
    retryInterval := ← orElse? f 4 d.retryInterval n.nat?
    fetchTimeout := ← orElse? f 5 d.fetchTimeout n.nat?
    minRefreshInterval := ← orElse? f 6 d.minRefreshInterval n.nat?
    backgroundRefresh := ← orElse? f 7 d.backgroundRefresh n.nat? }

def logging? (v : ν) : Option LoggingSettings := do
  let f ← n.fields? ["level", "format"] v
  let d : LoggingSettings := {}
  return ⟨← orElse? f 0 d.level n.text?, ← orElse? f 1 d.format n.text?⟩

def address? (v : ν) : Option Text := do
  let f ← n.fields? ["address"] v
  orElse? f 0 defaultAddress n.text?

def metrics? (v : ν) : Option Bool := do
  let f ← n.fields? ["enabled"] v
  orElse? f 0 true n.flag?

def settings? (v : ν) : Option Settings := do
  let f ← n.fields? ["server", "service", "access", "trust", "cache", "metrics", "logging"] v
  return {
    address := ← orElse? f 0 defaultAddress n.address?
    service := ← required? f 1 n.service?
    access := ← orElse? f 2 {} n.access?
    trust := ← required? f 3 n.trust?
    cache := ← orElse? f 4 {} n.cache?
    metricsEnabled := ← orElse? f 5 true n.metrics?
    logging := ← orElse? f 6 {} n.logging? }

end Spelling

end BearerGate
