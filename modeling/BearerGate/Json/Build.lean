import BearerGate.Json.Syntax
import BearerGate.Json.Value

namespace BearerGate.Raw

def hex4 (a b c d : UInt8) : Nat :=
  let f (x : UInt8) : Nat := (Percent.hexDigit x).toNat
  ((f a * 16 + f b) * 16 + f c) * 16 + f d

def unescape? : Bytes → Option Bytes
  | [] => some []
  | 92 :: 117 :: a :: b :: c :: d :: r =>
    let n := hex4 a b c d
    if 0xDC00 ≤ n && n < 0xE000 then none
    else if 0xD800 ≤ n && n < 0xDC00 then
      match r with
      | 92 :: 117 :: a :: b :: c :: d :: r =>
        let m := hex4 a b c d
        if 0xDC00 ≤ m && m < 0xE000 then
          (unescape? r).map
            (Utf8.encodeChar (Char.ofNat (0x10000 + (n - 0xD800) * 0x400 + (m - 0xDC00))) ++ ·)
        else none
      | _ => none
    else (unescape? r).map (Utf8.encodeChar (Char.ofNat n) ++ ·)
  | 92 :: e :: r =>
    let b : UInt8 :=
      if e == 98 then 8 else if e == 102 then 12 else if e == 110 then 10
      else if e == 114 then 13 else if e == 116 then 9 else e
    (unescape? r).map (b :: ·)
  | b :: r => (unescape? r).map (b :: ·)

def unquote? (quoted : Bytes) : Option Text := (unescape? quoted).bind Utf8.decode?

def natOf (ds : Bytes) : Nat := ds.foldl (fun n b => 10 * n + (b - 48).toNat) 0

/-- Appends digits to a number as long as it keeps within 64 bits, and says how many are left. -/
def appendDigits : Nat → Bytes → Nat × Nat
  | n, [] => (n, 0)
  | n, b :: r =>
    let m := 10 * n + (b - 48).toNat
    if m < Word.size then appendDigits m r else (n, r.length + 1)

/-- The value of a number's spelling; one that overflows has none. A number that is no integer is
read from the digits that 64 bits hold. -/
def numberValue? (spelling : Bytes) : Option Json :=
  let (negative, s) :=
    match spelling with
    | 45 :: r => (true, r)
    | s => (false, s)
  let (whole, s) := digits s
  let (frac, s) : Bytes × Bytes :=
    match s with
    | 46 :: r => digits r
    | s => ([], s)
  let exp : Int :=
    match s with
    | _ :: 45 :: r => -(natOf r : Int)
    | _ :: 43 :: r => natOf r
    | _ :: r => natOf r
    | [] => 0
  let n := natOf whole
  if spelling.all (fun b => isDigit b || b == 45) &&
      (if negative then 0 < n && n ≤ Word.half else n < Word.size) then
    some (.int (if negative then -n else n))
  else
    let (n, left) := appendDigits 0 whole
    let (n, unread) := appendDigits n frac
    (Binary64.scaled? negative n (exp + left - (frac.length - unread : Nat))).map .real

mutual

/-- Builds the value, with at most `depth` containers inside one another. Of a repeated member the
last one is kept. -/
def build? : Nat → Raw → Option Json
  | _, null => some .null
  | _, bool b => some (.bool b)
  | _, number s => numberValue? s
  | _, string s => (unquote? s).map .string
  | 0, array _ => none
  | 0, object _ => none
  | depth + 1, array items => (buildItems? depth items).map .array
  | depth + 1, object members => (buildMembers? depth members).map .object

def buildItems? : Nat → List Raw → Option (List Json)
  | _, [] => some []
  | depth, v :: r =>
    match build? depth v, buildItems? depth r with
    | some v, some r => some (v :: r)
    | _, _ => none

def buildMembers? : Nat → List (Bytes × Raw) → Option (List (Text × Json))
  | _, [] => some []
  | depth, (k, v) :: r =>
    match unquote? k, build? depth v, buildMembers? depth r with
    | some k, some v, some r => some (if r.any (·.1 = k) then r else (k, v) :: r)
    | _, _, _ => none

end

def maxDepth : Nat := 127

end BearerGate.Raw
