import BearerGate.Crypto.Sha2

namespace BearerGate.Crypto

/-- The curve `y² = x³ - 3x + b` over a prime field, with a base point of prime order. -/
structure Curve where
  p : Nat
  b : Nat
  order : Nat
  baseX : Nat
  baseY : Nat
  size : Nat
  deriving DecidableEq, Repr

namespace Curve

def p256 : Curve where
  p := Nat.pow 2 256 - Nat.pow 2 224 + Nat.pow 2 192 + Nat.pow 2 96 - 1
  b := 0x5ac635d8aa3a93e7b3ebbd55769886bc651d06b0cc53b0f63bce3c3e27d2604b
  order := 0xffffffff00000000ffffffffffffffffbce6faada7179e84f3b9cac2fc632551
  baseX := 0x6b17d1f2e12c4247f8bce6e563a440f277037d812deb33a0f4a13945d898c296
  baseY := 0x4fe342e2fe1a7f9b8ee7eb4a7c0f9e162bce33576b315ececbb6406837bf51f5
  size := 32

def p384 : Curve where
  p := Nat.pow 2 384 - Nat.pow 2 128 - Nat.pow 2 96 + Nat.pow 2 32 - 1
  b := 0xb3312fa7e23ee7e4988e056be3f82d19181d9c6efe8141120314088f5013875ac656398d8a2ed19d2a85c8edd3ec2aef
  order := 0xffffffffffffffffffffffffffffffffffffffffffffffffc7634d81f4372ddf581a0db248b0a77aecec196accc52973
  baseX := 0xaa87ca22be8b05378eb1c71ef320ad746e1d3b628ba79b9859f741e082542a385502f25dbf55296c3a545e3872760ab7
  baseY := 0x3617de4a96262c6f5d9e98bf9292dc29f8f41dbd289a147ce9da3113b5f0b8c00a60b1ce1d7e819d7a431d7c90ea0e5f
  size := 48

/-- A point `(x / z², y / z³)`, or the neutral one when `z` is zero. -/
structure Point where
  x : Nat
  y : Nat
  z : Nat

def neutral : Point := ⟨1, 1, 0⟩

def base (c : Curve) : Point := ⟨c.baseX, c.baseY, 1⟩

def isOn (c : Curve) (x y : Nat) : Bool :=
  x < c.p && y < c.p && y * y % c.p = subMod c.p (x * x * x + c.b) (3 * x)

def double (c : Curve) (a : Point) : Point :=
  let p := c.p
  let delta := a.z * a.z % p
  let gamma := a.y * a.y % p
  let beta := a.x * gamma % p
  let alpha := 3 * subMod p a.x delta * (a.x + delta) % p
  let x := subMod p (alpha * alpha) (8 * beta)
  ⟨x, subMod p (alpha * subMod p (4 * beta) x) (8 * gamma * gamma), 2 * a.y * a.z % p⟩

def add (c : Curve) (a b : Point) : Point :=
  if a.z = 0 then b
  else if b.z = 0 then a
  else
    let p := c.p
    let za := a.z * a.z % p
    let zb := b.z * b.z % p
    let ua := a.x * zb % p
    let ub := b.x * za % p
    let sa := a.y * b.z * zb % p
    let sb := b.y * a.z * za % p
    let h := subMod p ub ua
    let r := subMod p sb sa
    if h = 0 then (if r = 0 then c.double a else neutral)
    else
      let hh := h * h % p
      let hhh := h * hh % p
      let v := ua * hh % p
      let x := subMod p (r * r) (hhh + 2 * v)
      ⟨x, subMod p (r * subMod p v x) (sa * hhh), a.z * b.z * h % p⟩

def combine (c : Curve) (a b ab : Point) (m n : Nat) : Nat → Point → Point
  | 0, acc => acc
  | i + 1, acc =>
    let acc := c.double acc
    let acc :=
      match m.testBit i, n.testBit i with
      | true, true => c.add acc ab
      | true, false => c.add acc a
      | false, true => c.add acc b
      | false, false => acc
    c.combine a b ab m n i acc

end Curve

def verifyEcdsa (c : Curve) (d : Digest) (point message signature : Bytes) : Bool :=
  let x := toNat (point.take c.size)
  let y := toNat (point.drop c.size)
  let r := toNat (signature.take c.size)
  let s := toNat (signature.drop c.size)
  if point.length ≠ 2 * c.size || signature.length ≠ 2 * c.size then false
  else if !c.isOn x y || r = 0 || s = 0 || c.order ≤ r || c.order ≤ s then false
  else
    let w := invMod c.order s
    let u := toNat (d.hash message) * w % c.order
    let v := r * w % c.order
    let q : Curve.Point := ⟨x, y, 1⟩
    let sum := c.combine c.base q (c.add c.base q) u v (8 * c.size) Curve.neutral
    sum.z ≠ 0 && (sum.x * invMod c.p (sum.z * sum.z) % c.p) % c.order = r

end BearerGate.Crypto
