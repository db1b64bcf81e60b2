import BearerGate.Text.Basic

namespace BearerGate

abbrev Bytes := List UInt8

namespace Utf8

def encodeChar (c : Char) : Bytes :=
  let n := c.toNat
  if n < 0x80 then [n.toUInt8]
  else if n < 0x800 then [(0xC0 + n / 0x40).toUInt8, (0x80 + n % 0x40).toUInt8]
  else if n < 0x10000 then
    [(0xE0 + n / 0x1000).toUInt8, (0x80 + n / 0x40 % 0x40).toUInt8, (0x80 + n % 0x40).toUInt8]
  else
    [(0xF0 + n / 0x40000).toUInt8, (0x80 + n / 0x1000 % 0x40).toUInt8,
      (0x80 + n / 0x40 % 0x40).toUInt8, (0x80 + n % 0x40).toUInt8]

def encode (t : Text) : Bytes := t.flatMap encodeChar

def isTail (b : UInt8) : Bool := 0x80 ≤ b && b < 0xC0

def low (b : UInt8) : Nat := b.toNat % 0x40

/-- Refuses overlong forms, surrogates and numbers above `0x10FFFF`. -/
def decode? : Bytes → Option Text
  | [] => some []
  | a :: r =>
    if a < 0x80 then (decode? r).map (Char.ofNat a.toNat :: ·)
    else if 0xC2 ≤ a && a < 0xE0 then
      match r with
      | b :: r =>
        if isTail b then (decode? r).map (Char.ofNat (a.toNat % 0x20 * 0x40 + low b) :: ·) else none
      | _ => none
    else if 0xE0 ≤ a && a < 0xF0 then
      match r with
      | b :: c :: r =>
        let n := a.toNat % 0x10 * 0x1000 + low b * 0x40 + low c
        if isTail b && isTail c && 0x800 ≤ n && !(0xD800 ≤ n && n < 0xE000) then
          (decode? r).map (Char.ofNat n :: ·)
        else none
      | _ => none
    else if 0xF0 ≤ a && a < 0xF5 then
      match r with
      | b :: c :: d :: r =>
        let n := a.toNat % 0x08 * 0x40000 + low b * 0x1000 + low c * 0x40 + low d
        if isTail b && isTail c && isTail d && 0x10000 ≤ n && n < 0x110000 then
          (decode? r).map (Char.ofNat n :: ·)
        else none
      | _ => none
    else none

end Utf8

namespace Percent

def isHexDigit (b : UInt8) : Bool :=
  (48 ≤ b && b < 58) || (65 ≤ b && b < 71) || (97 ≤ b && b < 103)

def hexDigit (b : UInt8) : UInt8 :=
  if b < 58 then b - 48 else if b < 71 then b - 55 else b - 87

/-- Replaces each `%` that two hexadecimal digits follow, and keeps any other `%`. -/
def unescape : Bytes → Bytes
  | 37 :: a :: b :: r =>
    if isHexDigit a && isHexDigit b then (16 * hexDigit a + hexDigit b) :: unescape r
    else 37 :: unescape (a :: b :: r)
  | a :: r => a :: unescape r
  | [] => []

def decode (t : Text) : Bytes := unescape (Utf8.encode t)

end Percent

end BearerGate
