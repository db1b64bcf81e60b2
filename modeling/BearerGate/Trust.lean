import BearerGate.Assoc
import BearerGate.Config.Settings

namespace BearerGate

/-- How an issuer relates to tenants: a core issuer serves several, any other exactly one. -/
inductive Binding
  | core (allowed : List Text)
  | tenant (id : Text)
  deriving DecidableEq, Repr

structure TrustedIssuer where
  url : Text
  binding : Binding
  deriving DecidableEq, Repr

namespace TrustedIssuer

def isCore (i : TrustedIssuer) : Bool :=
  match i.binding with
  | .core _ => true
  | .tenant _ => false

def boundTenant? (i : TrustedIssuer) : Option Text :=
  match i.binding with
  | .core _ => none
  | .tenant id => some id

def acceptsTenant (i : TrustedIssuer) (id : Text) : Bool :=
  match i.binding with
  | .core allowed => allowed.any (· = id)
  | .tenant bound => bound = id

end TrustedIssuer

namespace IssuerUrl

def dropSlashes (t : Text) : Text := Text.dropEndWhile (· = '/') t

/-- Scheme and authority in lower case, no trailing slashes. Two spellings of one issuer have the
same normal form. -/
def normalForm (url : Text) : Text :=
  let t := dropSlashes (Text.trim url)
  match Text.cutAt? "://" t with
  | some (scheme, rest) =>
    Text.lower scheme ++ "://" ++ Text.lower (rest.takeWhile (· ≠ '/')) ++ rest.dropWhile (· ≠ '/')
  | none => t

end IssuerUrl

structure RealmRule where
  base : Text
  tenants : List (Text × Text)
  deriving DecidableEq, Repr

namespace RealmRule

def make (baseUrl : Text) (tenants : List (Text × Text)) : RealmRule :=
  ⟨IssuerUrl.dropSlashes (Text.trim baseUrl), tenants⟩

def resolve? (r : RealmRule) (claimed : Text) : Option TrustedIssuer := do
  let realm ← Text.after? (IssuerUrl.normalForm r.base ++ ['/']) (IssuerUrl.normalForm claimed)
  if realm = [] ∨ '/' ∈ realm then none
  else
    let tenant ← r.tenants.lookup realm
    some ⟨r.base ++ '/' :: realm, .tenant tenant⟩

end RealmRule

structure TrustPolicy where
  issuers : List (Text × TrustedIssuer)
  realms : Option RealmRule
  deriving DecidableEq, Repr

namespace TrustPolicy

def listed? (i : IssuerSettings) : Option TrustedIssuer :=
  if i.core then some ⟨i.issuer, .core i.allowedTenants⟩
  else i.tenant.map fun id => ⟨i.issuer, .tenant id⟩

def ofSettings (s : TrustSettings) : TrustPolicy :=
  ⟨Assoc.ofList ((s.issuers.filterMap listed?).map fun i => (IssuerUrl.normalForm i.url, i)),
    s.realms.map fun r => RealmRule.make r.baseUrl r.tenants⟩

/-- The accepted issuer that a claimed spelling names; a listed one comes before any realm. -/
def resolve? (p : TrustPolicy) (claimed : Text) : Option TrustedIssuer :=
  match p.issuers.lookup (IssuerUrl.normalForm claimed) with
  | some i => some i
  | none => p.realms.bind (·.resolve? claimed)

def isEmpty (p : TrustPolicy) : Bool := p.issuers.isEmpty && p.realms.isNone

end TrustPolicy

end BearerGate
