import BearerGate.Text.Utf8

namespace BearerGate.Crypto

def toNat (b : Bytes) : Nat := b.foldl (fun n x => 256 * n + x.toNat) 0

def ofNat (size n : Nat) : Bytes :=
  (List.range size).map fun i => (n >>> (8 * (size - 1 - i))).toUInt8

def powMod (m b e : Nat) : Nat :=
  if e = 0 then 1 % m
  else
    let h := powMod m (b * b % m) (e / 2)
    if e % 2 = 1 then h * b % m else h
termination_by e
decreasing_by omega

def invMod (p a : Nat) : Nat := powMod p (a % p) (p - 2)

def subMod (p a b : Nat) : Nat := (a + (p - b % p)) % p

/-- The greatest number whose power `k` is at most `n`, from its bits below `bits` down. -/
def root (k n : Nat) : Nat → Nat → Nat
  | 0, r => r
  | bits + 1, r =>
    let r' := r + Nat.pow 2 bits
    root k n bits (if r'.pow k ≤ n then r' else r)

end BearerGate.Crypto
