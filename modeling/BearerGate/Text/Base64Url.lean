import BearerGate.Text.Utf8

namespace BearerGate.Base64Url

def digit? (c : Char) : Option Nat :=
  if 'A' ≤ c && c ≤ 'Z' then some (c.toNat - 65)
  else if 'a' ≤ c && c ≤ 'z' then some (c.toNat - 71)
  else if '0' ≤ c && c ≤ '9' then some (c.toNat + 4)
  else if c = '-' then some 62
  else if c = '_' then some 63
  else none

/-- Strict: no padding, no other letter, and the bits left over at the end are zero. -/
def decode? : Text → Option Bytes
  | [] => some []
  | [_] => none
  | [a, b] => do
    let x ← digit? a
    let y ← digit? b
    if y % 16 = 0 then some [(4 * x + y / 16).toUInt8] else none
  | [a, b, c] => do
    let x ← digit? a
    let y ← digit? b
    let z ← digit? c
    if z % 4 = 0 then some [(4 * x + y / 16).toUInt8, (y % 16 * 16 + z / 4).toUInt8] else none
  | a :: b :: c :: d :: r => do
    let x ← digit? a
    let y ← digit? b
    let z ← digit? c
    let w ← digit? d
    let more ← decode? r
    some ((4 * x + y / 16).toUInt8 :: (y % 16 * 16 + z / 4).toUInt8 ::
      (z % 4 * 64 + w).toUInt8 :: more)

end BearerGate.Base64Url
