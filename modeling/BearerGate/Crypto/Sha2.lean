import BearerGate.Crypto.Number

namespace BearerGate.Crypto

structure Mix where
  first : Nat
  second : Nat
  third : Nat

structure Sha2 (w : Nat) where
  initial : List (BitVec w)
  constants : Array (BitVec w)
  bigA : Mix
  bigE : Mix
  smallOld : Mix
  smallNew : Mix
  digestWords : Nat

namespace Sha2

def primes : List Nat :=
  [2, 3, 5, 7, 11, 13, 17, 19, 23, 29, 31, 37, 41, 43, 47, 53, 59, 61, 67, 71, 73, 79, 83, 89, 97,
    101, 103, 107, 109, 113, 127, 131, 137, 139, 149, 151, 157, 163, 167, 173, 179, 181, 191, 193,
    197, 199, 211, 223, 227, 229, 233, 239, 241, 251, 257, 263, 269, 271, 277, 281, 283, 293, 307,
    311, 313, 317, 331, 337, 347, 349, 353, 359, 367, 373, 379, 383, 389, 397, 401, 409]

/-- The first bits of the fraction of a root of `n`. -/
def rootFraction (w k n : Nat) : BitVec w := BitVec.ofNat w (root k (n * Nat.pow 2 (k * w)) (w + 8) 0)

def sha256 : Sha2 32 where
  initial := (primes.take 8).map (rootFraction 32 2)
  constants := ((primes.take 64).map (rootFraction 32 3)).toArray
  bigA := ⟨2, 13, 22⟩
  bigE := ⟨6, 11, 25⟩
  smallOld := ⟨7, 18, 3⟩
  smallNew := ⟨17, 19, 10⟩
  digestWords := 8

def sha512 : Sha2 64 where
  initial := (primes.take 8).map (rootFraction 64 2)
  constants := (primes.map (rootFraction 64 3)).toArray
  bigA := ⟨28, 34, 39⟩
  bigE := ⟨14, 18, 41⟩
  smallOld := ⟨1, 8, 7⟩
  smallNew := ⟨19, 61, 6⟩
  digestWords := 8

def sha384 : Sha2 64 :=
  { sha512 with initial := ((primes.drop 8).take 8).map (rootFraction 64 2), digestWords := 6 }

variable {w : Nat}

def blockSize (_ : Sha2 w) : Nat := 2 * w

def pad (h : Sha2 w) (m : Bytes) : Bytes :=
  let field := w / 4
  let used := (m.length + 1 + field) % h.blockSize
  let zeros := if used = 0 then 0 else h.blockSize - used
  m ++ 0x80 :: (List.replicate zeros 0 ++ ofNat field (8 * m.length))

def rotations (x : BitVec w) (m : Mix) : BitVec w :=
  x.rotateRight m.first ^^^ x.rotateRight m.second ^^^ x.rotateRight m.third

def shifted (x : BitVec w) (m : Mix) : BitVec w :=
  x.rotateRight m.first ^^^ x.rotateRight m.second ^^^ x >>> m.third

def words : Nat → Bytes → Array (BitVec w)
  | 0, _ => #[]
  | n + 1, b => #[BitVec.ofNat w (toNat (b.take (w / 8)))] ++ words n (b.drop (w / 8))

def schedule (h : Sha2 w) : Nat → Array (BitVec w) → Array (BitVec w)
  | 0, a => a
  | n + 1, a =>
    let back (i : Nat) := a.getD (a.size - i) 0
    h.schedule n (a.push (shifted (back 2) h.smallNew + back 7 + shifted (back 15) h.smallOld + back 16))

structure State (w : Nat) where
  a : BitVec w
  b : BitVec w
  c : BitVec w
  d : BitVec w
  e : BitVec w
  f : BitVec w
  g : BitVec w
  h : BitVec w

def round (h : Sha2 w) (s : State w) (k x : BitVec w) : State w :=
  let t := s.h + rotations s.e h.bigE + ((s.e &&& s.f) ^^^ (~~~s.e &&& s.g)) + k + x
  let u := rotations s.a h.bigA + ((s.a &&& s.b) ^^^ (s.a &&& s.c) ^^^ (s.b &&& s.c))
  ⟨t + u, s.a, s.b, s.c, s.d + t, s.e, s.f, s.g⟩

def add (s t : State w) : State w :=
  ⟨s.a + t.a, s.b + t.b, s.c + t.c, s.d + t.d, s.e + t.e, s.f + t.f, s.g + t.g, s.h + t.h⟩

def compress (h : Sha2 w) (s : State w) (block : Bytes) : State w :=
  let ws := h.schedule (h.constants.size - 16) (words 16 block)
  add s ((h.constants.zip ws).foldl (fun s p => h.round s p.1 p.2) s)

def blocks (h : Sha2 w) : Nat → State w → Bytes → State w
  | 0, s, _ => s
  | n + 1, s, b => h.blocks n (h.compress s (b.take h.blockSize)) (b.drop h.blockSize)

def start (h : Sha2 w) : State w :=
  let i (n : Nat) := h.initial.getD n 0
  ⟨i 0, i 1, i 2, i 3, i 4, i 5, i 6, i 7⟩

def hash (h : Sha2 w) (m : Bytes) : Bytes :=
  let p := h.pad m
  let s := h.blocks (p.length / h.blockSize) h.start p
  ([s.a, s.b, s.c, s.d, s.e, s.f, s.g, s.h].take h.digestWords).flatMap fun x => ofNat (w / 8) x.toNat

end Sha2

structure Digest where
  size : Nat
  hash : Bytes → Bytes
  tag : Bytes

/-- The DER form of a digest up to the digest, for the object identifier that ends in `id`. -/
def digestTag (id size : UInt8) : Bytes :=
  [0x30, 17 + size, 0x30, 0x0d, 0x06, 0x09, 0x60, 0x86, 0x48, 0x01, 0x65, 0x03, 0x04, 0x02, id,
    0x05, 0x00, 0x04, size]

def Digest.sha256 : Digest := ⟨32, Sha2.sha256.hash, digestTag 1 32⟩

def Digest.sha384 : Digest := ⟨48, Sha2.sha384.hash, digestTag 2 48⟩

def Digest.sha512 : Digest := ⟨64, Sha2.sha512.hash, digestTag 3 64⟩

end BearerGate.Crypto
