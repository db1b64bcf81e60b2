import BearerGate.Crypto.Ecdsa
import BearerGate.Crypto.Ed25519
import BearerGate.Crypto.Rsa
import BearerGate.Key.SigningKey

namespace BearerGate

open Crypto

def Algorithm.digest : Algorithm → Digest
  | .hs256 | .es256 | .rs256 | .ps256 => .sha256
  | .hs384 | .es384 | .rs384 | .ps384 => .sha384
  | .hs512 | .rs512 | .ps512 | .edDSA => .sha512

def PublicKey.verifies (k : PublicKey) (a : Algorithm) (message signature : Bytes) : Bool :=
  match k, a with
  | .rsa n e, .rs256 | .rsa n e, .rs384 | .rsa n e, .rs512 =>
    (Rsa.key? n e).any fun k => Rsa.verifyPkcs1 a.digest k message signature
  | .rsa n e, .ps256 | .rsa n e, .ps384 | .rsa n e, .ps512 =>
    (Rsa.key? n e).any fun k => Rsa.verifyPss a.digest k message signature
  | .p256 point, .es256 => verifyEcdsa .p256 a.digest point message signature
  | .p384 point, .es384 => verifyEcdsa .p384 a.digest point message signature
  | .ed25519 point, .edDSA => Ed25519.verify point message signature
  | _, _ => false

end BearerGate
