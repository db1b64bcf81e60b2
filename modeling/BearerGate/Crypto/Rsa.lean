import BearerGate.Crypto.Sha2

namespace BearerGate.Crypto.Rsa

structure Key where
  modulus : Nat
  exponent : Nat
  size : Nat
  deriving DecidableEq, Repr

/-- Modulus of 2048 (as whole bytes) to 8192 bits and odd, exponent odd, at least 3 and below
`2 ^ 33`; neither with a leading zero byte. -/
def key? (modulus exponent : Bytes) : Option Key :=
  let n := toNat modulus
  let e := toNat exponent
  if modulus.head?.all (· = 0) || exponent.head?.all (· = 0) then none
  else if modulus.length < 256 || 1024 < modulus.length || n % 2 = 0 then none
  else if e % 2 = 0 || e < 3 || Nat.pow 2 33 ≤ e then none
  else some ⟨n, e, modulus.length⟩

def recover? (k : Key) (signature : Bytes) : Option Bytes :=
  let s := toNat signature
  if signature.length ≠ k.size || k.modulus ≤ s then none
  else some (ofNat k.size (powMod k.modulus s k.exponent))

def encodePkcs1 (d : Digest) (size : Nat) (message : Bytes) : Bytes :=
  let info := d.tag ++ d.hash message
  [0, 1] ++ List.replicate (size - 3 - info.length) 0xff ++ 0 :: info

def verifyPkcs1 (d : Digest) (k : Key) (message signature : Bytes) : Bool :=
  match recover? k signature with
  | some m => m = encodePkcs1 d k.size message
  | none => false

def mask (d : Digest) (seed : Bytes) (size : Nat) : Bytes :=
  ((List.range (size / d.size + 1)).flatMap fun i => d.hash (seed ++ ofNat 4 i)).take size

def xor (a b : Bytes) : Bytes := List.zipWith (· ^^^ ·) a b

/-- Checks the encoding with a salt as long as the digest. -/
def checkPss (d : Digest) (bits : Nat) (encoded message : Bytes) : Bool :=
  let size := (bits - 1 + 7) / 8
  let unused := 8 * size - (bits - 1)
  let lead := encoded.take (encoded.length - size)
  let em := encoded.drop (encoded.length - size)
  let dbSize := size - d.size - 1
  let masked := em.take dbSize
  let h := (em.drop dbSize).take d.size
  let top := masked.headD 0
  let low : UInt8 := (Nat.pow 2 (8 - unused) - 1).toUInt8
  let plain := xor masked (mask d h dbSize)
  let db := (plain.headD 0 &&& low) :: plain.drop 1
  let padding := dbSize - d.size - 1
  let salt := db.drop (padding + 1)
  2 * d.size + 2 ≤ size && lead.all (· = 0) && em.getLast? = some 0xbc && top &&& ~~~low = 0 &&
    (db.take padding).all (· = 0) && db[padding]? = some 1 &&
    h = d.hash (List.replicate 8 0 ++ d.hash message ++ salt)

def verifyPss (d : Digest) (k : Key) (message signature : Bytes) : Bool :=
  match recover? k signature with
  | some m => checkPss d (k.modulus.log2 + 1) m message
  | none => false

end BearerGate.Crypto.Rsa
