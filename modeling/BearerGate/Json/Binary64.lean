import BearerGate.Text.Basic

namespace BearerGate

/-- A finite binary floating-point number of 64 bits: `mantissa * 2 ^ exponent`, with the mantissa
below `2 ^ 53` and the exponent as small as that and `-1074` allow. -/
structure Binary64 where
  negative : Bool
  mantissa : Nat
  exponent : Int
  deriving DecidableEq, Repr

namespace Binary64

def zero (negative : Bool) : Binary64 := ⟨negative, 0, -1074⟩

/-- The integer nearest to `num / den`; a tie goes to the even one. -/
def nearest (num den : Nat) : Nat :=
  let q := num / den
  let r := num % den
  if 2 * r < den then q else if den < 2 * r then q + 1 else q + q % 2

def lead : Nat := 4503599627370496

def pow (base : Nat) (e : Int) : Nat := base.pow e.toNat

def ofRatio? (negative : Bool) (num den : Nat) : Option Binary64 :=
  if num = 0 then some (zero negative) else
    let guess : Int := (num.log2 : Int) - den.log2 - 52
    let guess := if num * pow 2 (-guess) < den * pow 2 guess * lead then guess - 1 else guess
    let e := max guess (-1074)
    let m := nearest (num * pow 2 (-e)) (den * pow 2 e)
    let (m, e) := if m = 2 * lead then (lead, e + 1) else (m, e)
    if 971 < e then none else some ⟨negative, m, e⟩

def mul? (x y : Binary64) : Option Binary64 :=
  let e := x.exponent + y.exponent
  ofRatio? (x.negative != y.negative) (x.mantissa * y.mantissa * pow 2 e) (pow 2 (-e))

def div? (x y : Binary64) : Option Binary64 :=
  let e := x.exponent - y.exponent
  ofRatio? (x.negative != y.negative) (x.mantissa * pow 2 e) (y.mantissa * pow 2 (-e))

def powerOfTen? (e : Int) : Option Binary64 := ofRatio? false (pow 10 e) 1

/-- `digits * 10 ^ e`, rounded after each operation, or nothing when that is too large. One operation
scales by `10 ^ 308` at most, and two divisions by as much leave nothing but zero. -/
def scaled? (negative : Bool) (digits : Nat) (e : Int) : Option Binary64 := do
  let x ← ofRatio? negative digits 1
  if digits = 0 ∨ e < -616 then some (zero negative)
  else if e < -308 then
    let y ← x.div? (← powerOfTen? 308)
    y.div? (← powerOfTen? (-e - 308))
  else if e < 0 then x.div? (← powerOfTen? (-e))
  else if e ≤ 308 then x.mul? (← powerOfTen? e)
  else none

/-- The decimals that read back as a positive number lie between `low` and `high`, over `unit`. -/
structure Span where
  low : Nat
  value : Nat
  high : Nat
  unit : Nat
  ends : Bool

def span (x : Binary64) : Span :=
  let scale := pow 2 x.exponent
  let below := if x.mantissa = lead ∧ -1074 < x.exponent then 1 else 2
  ⟨(4 * x.mantissa - below) * scale, 4 * x.mantissa * scale, (4 * x.mantissa + 2) * scale,
    4 * pow 2 (-x.exponent), x.mantissa % 2 = 0⟩

def Span.has (s : Span) (n : Nat) (e : Int) : Bool :=
  let v := n * pow 10 e * s.unit
  let low := s.low * pow 10 (-e)
  let high := s.high * pow 10 (-e)
  (low < v && v < high) || (s.ends && (v = low || v = high))

def Span.pick? (s : Span) (e : Int) : Option Nat :=
  let num := s.value * pow 10 (-e)
  let den := s.unit * pow 10 e
  let q := num / den
  let first := nearest num den
  let second := if first = q then q + 1 else q
  if s.has first e then some first else if s.has second e then some second else none

def trimZeros : Nat → Nat → Int → Nat × Int
  | 0, n, e => (n, e)
  | fuel + 1, n, e => if n % 10 = 0 ∧ n ≠ 0 then trimZeros fuel (n / 10) (e + 1) else (n, e)

def shortest (x : Binary64) : Nat × Int :=
  let s := x.span
  let top : Int :=
    if s.unit ≤ s.value then (Nat.toDigits 10 (s.value / s.unit)).length
    else 1 - (Nat.toDigits 10 (s.unit / s.value)).length
  let grids := (List.range 19).map fun (i : Nat) => top + 1 - (i : Int)
  match grids.findSome? fun e => (s.pick? e).bind fun n => if n = 0 then none else some (n, e) with
  | some (n, e) => trimZeros 20 n e
  | none => (x.mantissa, x.exponent)

/-- Positional from `1e-5` up to below `1e16`, with a point in any case; else with an exponent. -/
def print (x : Binary64) : Text :=
  let sign : Text := if x.negative then "-" else ""
  if x.mantissa = 0 then sign ++ "0.0" else
    let (n, e) := x.shortest
    let digits : Text := Text.ofNat n
    let size : Int := digits.length
    let point := size + e
    sign ++
      if 0 ≤ e ∧ point ≤ 16 then digits ++ List.replicate e.toNat '0' ++ ".0"
      else if 0 < point ∧ point ≤ 16 then
        digits.take point.toNat ++ '.' :: digits.drop point.toNat
      else if -5 < point ∧ point ≤ 0 then
        "0." ++ List.replicate (-point).toNat '0' ++ digits
      else if digits.length = 1 then digits ++ 'e' :: Text.ofInt (point - 1)
      else digits.take 1 ++ '.' :: digits.drop 1 ++ 'e' :: Text.ofInt (point - 1)

end Binary64

end BearerGate
