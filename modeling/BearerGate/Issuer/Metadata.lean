import BearerGate.Json.Decode
import BearerGate.Key.Algorithm

namespace BearerGate

structure Metadata where
  issuer : Text
  authorizationEndpoint : Option Text
  tokenEndpoint : Option Text
  jwksUri : Text
  signingAlgorithms : List Text
  deriving DecidableEq, Repr

namespace Metadata

def fieldNames : List Text :=
  ["issuer", "authorization_endpoint", "token_endpoint", "jwks_uri",
    "id_token_signing_alg_values_supported"]

def ofRaw? (r : Raw) : Option Metadata := do
  let f ← r.fields? fieldNames
  return {
    issuer := ← f.required? 0 Raw.text?
    authorizationEndpoint := ← f.optional? 1 Raw.text?
    tokenEndpoint := ← f.optional? 2 Raw.text?
    jwksUri := ← f.required? 3 Raw.text?
    signingAlgorithms := ← f.withDefault? 4 [] (Raw.list? Raw.text?) }

/-- Whether the issuer advertises the algorithm; one that advertises none allows all. -/
def allows (m : Metadata) (a : Algorithm) : Bool :=
  m.signingAlgorithms = [] || m.signingAlgorithms.any fun n => Algorithm.asymmetric? n = some a

end Metadata

def discoveryUrl (issuer : Text) : Text :=
  Text.dropEndWhile (· = '/') issuer ++ "/.well-known/openid-configuration"

end BearerGate
