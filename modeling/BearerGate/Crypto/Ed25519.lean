import BearerGate.Crypto.Sha2

namespace BearerGate.Crypto.Ed25519

def p : Nat := Nat.pow 2 255 - 19

def order : Nat := Nat.pow 2 252 + 27742317777372353535851937790883648493

/-- The constant of the curve `-x² + y² = 1 + d x² y²`. -/
def d : Nat := (p - 121665) * invMod p 121666 % p

/-- A point `(x / z, y / z)` with `t = x y / z`. -/
structure Point where
  x : Nat
  y : Nat
  z : Nat
  t : Nat

def neutral : Point := ⟨0, 1, 1, 0⟩

def add (a b : Point) : Point :=
  let m := subMod p a.y a.x * subMod p b.y b.x % p
  let n := (a.y + a.x) * (b.y + b.x) % p
  let c := 2 * a.t * b.t % p * d % p
  let z := 2 * a.z * b.z % p
  let e := subMod p n m
  let f := subMod p z c
  let g := z + c
  let h := n + m
  ⟨e * f % p, g * h % p, f * g % p, e * h % p⟩

def negate (a : Point) : Point := ⟨subMod p 0 a.x, a.y, a.z, subMod p 0 a.t⟩

def recoverX? (y : Nat) (odd : Bool) : Option Nat :=
  let u := subMod p (y * y) 1
  let v := (d * (y * y % p) + 1) % p
  let v3 := v * v % p * v % p
  let x := u * v3 % p * powMod p (u * v3 % p * v3 % p * v % p) ((p - 5) / 8) % p
  let vx := v * x % p * x % p
  let x? :=
    if vx = u then some x
    else if (vx + u) % p = 0 then some (x * powMod p 2 ((p - 1) / 4) % p)
    else none
  x?.map fun x => if (x % 2 = 1) = odd then x else subMod p 0 x

def ofCoordinates (x y : Nat) : Point := ⟨x, y % p, 1, x * y % p⟩

def littleEndian (b : Bytes) : Nat := toNat b.reverse

def decode? (b : Bytes) : Option Point :=
  let n := littleEndian b
  let y := n % Nat.pow 2 255
  if b.length ≠ 32 then none
  else (recoverX? y (n / Nat.pow 2 255 % 2 = 1)).map fun x => ofCoordinates x y

def encode (a : Point) : Bytes :=
  let i := invMod p a.z
  let x := a.x * i % p
  let y := a.y * i % p
  (ofNat 32 (y + x % 2 * Nat.pow 2 255)).reverse

def base : Point :=
  let y := 4 * invMod p 5 % p
  ofCoordinates ((recoverX? y false).getD 0) y

def combine (a b ab : Point) (m n : Nat) : Nat → Point → Point
  | 0, acc => acc
  | i + 1, acc =>
    let acc := add acc acc
    let acc :=
      match m.testBit i, n.testBit i with
      | true, true => add acc ab
      | true, false => add acc a
      | false, true => add acc b
      | false, false => acc
    combine a b ab m n i acc

def verify (key message signature : Bytes) : Bool :=
  let s := littleEndian (signature.drop 32)
  if signature.length ≠ 64 || order ≤ s then false
  else
    match decode? key with
    | none => false
    | some a =>
      let h := littleEndian (Digest.sha512.hash (signature.take 32 ++ key ++ message)) % order
      let q := negate a
      encode (combine base q (add base q) s h 256 neutral) = signature.take 32

end BearerGate.Crypto.Ed25519
