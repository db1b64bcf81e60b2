import BearerGate.Issuer.Fault
import BearerGate.Issuer.Metadata
import BearerGate.Key.SigningKey
import BearerGate.Token.Unverified

namespace BearerGate

structure Document where
  metadata : Metadata
  jwks : Jwks
  maxAge : Option Millis
  deriving DecidableEq, Repr

structure CachePolicy where
  defaultTtl : Millis
  minTtl : Millis
  maxTtl : Millis
  grace : Millis
  retryInterval : Millis
  fetchTimeout : Millis
  minRefreshInterval : Millis
  deriving DecidableEq, Repr

/-- A hint is brought between the bounds, where the upper one wins. -/
def CachePolicy.freshness (p : CachePolicy) : Option Millis → Millis
  | some hint => min (max hint p.minTtl) p.maxTtl
  | none => p.defaultTtl

/-- The trust material of an issuer as of one fetch: fresh until it expires, usable for a while
longer. -/
structure Record where
  issuer : Text
  metadata : Metadata
  keys : KeySet
  fetchedAt : Millis
  expiresAt : Millis
  usableUntil : Millis
  generation : Nat
  deriving DecidableEq, Repr

namespace Record

/-- The document has to describe the issuer exactly and to hold a usable key. -/
def build (issuer : Text) (d : Document) (p : CachePolicy) (generation : Nat) (now : Millis) :
    Except FetchFault Record :=
  if d.metadata.issuer ≠ issuer then .error (.mismatch issuer d.metadata.issuer)
  else
    match KeySet.ofJwks d.jwks with
    | [] => .error .noUsableKeys
    | keys =>
      let expiresAt := now + p.freshness d.maxAge
      .ok ⟨issuer, d.metadata, keys, now, expiresAt, expiresAt + p.grace, generation⟩

def isFresh (r : Record) (now : Millis) : Bool := now < r.expiresAt

def isUsable (r : Record) (now : Millis) : Bool := now < r.usableUntil

end Record

inductive KeyMiss
  | refused
  | absent
  deriving DecidableEq, Repr

/-- A refused algorithm will not be accepted in a newer record either; an absent key may be there. -/
def Record.selectKey (r : Record) (token : Unverified) : Except KeyMiss SigningKey :=
  let a := token.header.alg
  if a.isSymmetric || !r.metadata.allows a then .error .refused
  else
    match r.keys.find? token.header.kid a with
    | some k => .ok k
    | none => .error .absent

end BearerGate
