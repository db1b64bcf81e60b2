import BearerGate.Key.Algorithm
import BearerGate.Key.Jwk
import BearerGate.Text.Base64Url
import BearerGate.Text.Invisible

namespace BearerGate

inductive KeyFamily
  | rsa
  | p256
  | p384
  | ed25519
  deriving DecidableEq, Repr

namespace KeyFamily

def name : KeyFamily → Text
  | rsa => "Rsa"
  | p256 => "EcP256"
  | p384 => "EcP384"
  | ed25519 => "Ed25519"

def fits : KeyFamily → Algorithm → Bool
  | rsa, .rs256 | rsa, .rs384 | rsa, .rs512 | rsa, .ps256 | rsa, .ps384 | rsa, .ps512 => true
  | p256, .es256 => true
  | p384, .es384 => true
  | ed25519, .edDSA => true
  | _, _ => false

end KeyFamily

/-- Key material, decoded but not checked; a point that is none verifies nothing. -/
inductive PublicKey
  | rsa (modulus exponent : Bytes)
  | p256 (point : Bytes)
  | p384 (point : Bytes)
  | ed25519 (point : Bytes)
  deriving DecidableEq, Repr

def PublicKey.family : PublicKey → KeyFamily
  | .rsa .. => .rsa
  | .p256 .. => .p256
  | .p384 .. => .p384
  | .ed25519 .. => .ed25519

structure SigningKey where
  kid : Option Text
  pinned : Option Algorithm
  material : PublicKey
  deriving DecidableEq, Repr

namespace Jwk

inductive Fault
  | missing (parameter : Text)
  | keyType (kty : Text)
  | curve (crv : Text)
  | algorithm (text : Text)
  | material (kty : Text)
  deriving DecidableEq, Repr

def Fault.message : Fault → Text
  | .missing p => "Missing JWK parameter: " ++ p
  | .keyType t => "Unsupported key type: " ++ t
  | .curve c => "Unsupported curve: " ++ c
  | .algorithm t => "Unsupported algorithm: " ++ t
  | .material t => "Invalid key material: " ++ t

def need (parameter : Text) : Option Text → Except Fault Text
  | some t => .ok t
  | none => .error (.missing parameter)

def bytes (kty : Text) (t : Text) : Except Fault Bytes :=
  match Base64Url.decode? t with
  | some b => .ok b
  | none => .error (.material kty)

def pinned (k : Jwk) : Except Fault (Option Algorithm) :=
  match k.alg with
  | none => .ok none
  | some t =>
    match Algorithm.asymmetric? t with
    | some a => .ok (some a)
    | none => .error (.algorithm t)

def rsa (k : Jwk) : Except Fault PublicKey := do
  let n ← need "n" k.n
  let e ← need "e" k.e
  return .rsa (← bytes k.kty n) (← bytes k.kty e)

def point (k : Jwk) : Except Fault Bytes := do
  let x ← need "x" k.x
  let y ← need "y" k.y
  return (← bytes k.kty x) ++ (← bytes k.kty y)

def ec (k : Jwk) : Except Fault PublicKey := do
  let crv ← need "crv" k.crv
  if crv = "P-256".toList then return .p256 (← k.point)
  else if crv = "P-384".toList then return .p384 (← k.point)
  else throw (.curve crv)

def okp (k : Jwk) : Except Fault PublicKey := do
  let crv ← need "crv" k.crv
  if crv = "Ed25519".toList then
    let x ← need "x" k.x
    return .ed25519 (← bytes k.kty x)
  else throw (.curve crv)

def material (k : Jwk) : Except Fault PublicKey :=
  if k.kty = "RSA".toList then k.rsa
  else if k.kty = "EC".toList then k.ec
  else if k.kty = "OKP".toList then k.okp
  else .error (.keyType k.kty)

def signingKey (k : Jwk) : Except Fault SigningKey := do
  let pinned ← k.pinned
  let material ← k.material
  match pinned with
  | some a =>
    if material.family.fits a then return ⟨k.kid, pinned, material⟩
    else throw (.algorithm (a.name ++ " for " ++ k.kty ++ " key"))
  | none => return ⟨k.kid, pinned, material⟩

/-- Nothing for a key marked for encryption or one that is faulty. -/
def usable? (k : Jwk) : Option SigningKey :=
  if k.use = some "enc".toList then none else k.signingKey.toOption

end Jwk

namespace SigningKey

def family (k : SigningKey) : KeyFamily := k.material.family

def supports (k : SigningKey) (a : Algorithm) : Bool :=
  k.family.fits a && k.pinned.all (· = a)

def describeOption (t : Option Text) : Text :=
  match t with
  | some t => "Some(" ++ t ++ ")"
  | none => "None"

def describe (k : SigningKey) : Text :=
  "SigningKey \x7b kid: " ++ describeOption (k.kid.map Text.quoted) ++
    ", algorithm: " ++ describeOption (k.pinned.map Algorithm.name) ++
    ", family: " ++ k.family.name ++ ", .. \x7d"

end SigningKey

abbrev KeySet := List SigningKey

namespace KeySet

def ofJwks (keys : Jwks) : KeySet := keys.filterMap Jwk.usable?

/-- With a key id, only the first key of that id is considered; without one, the key has to be the
only one that supports the algorithm. -/
def find? (keys : KeySet) (kid : Option Text) (a : Algorithm) : Option SigningKey :=
  match kid with
  | some id => (List.find? (fun k => k.kid = some id) keys).filter (·.supports a)
  | none =>
    match keys.filter (·.supports a) with
    | [only] => some only
    | _ => none

end KeySet

end BearerGate
