import BearerGate.Json.Decode

namespace BearerGate

structure Jwk where
  kty : Text
  kid : Option Text
  use : Option Text
  alg : Option Text
  n : Option Text
  e : Option Text
  crv : Option Text
  x : Option Text
  y : Option Text
  deriving DecidableEq, Repr

namespace Jwk

def fieldNames : List Text := ["kty", "kid", "use", "alg", "n", "e", "crv", "x", "y"]

def ofRaw? (r : Raw) : Option Jwk := do
  let f ← r.fields? fieldNames
  let text (i : Nat) := f.optional? i Raw.text?
  return {
    kty := ← f.required? 0 Raw.text?
    kid := ← text 1
    use := ← text 2
    alg := ← text 3
    n := ← text 4
    e := ← text 5
    crv := ← text 6
    x := ← text 7
    y := ← text 8 }

end Jwk

abbrev Jwks := List Jwk

def Jwks.ofRaw? (r : Raw) : Option Jwks := do
  let f ← r.fields? ["keys"]
  f.withDefault? 0 [] (Raw.list? Jwk.ofRaw?)

end BearerGate
