import BearerGate.Text.Utf8

namespace BearerGate

/-- An absolute address of the web in normal form. Its path begins with a slash and has no dot
segments. -/
structure Url where
  secure : Bool
  host : Text
  port : Option Nat
  path : Text
  query : Option Text
  deriving DecidableEq, Repr

namespace Url

def isSlash (c : Char) : Bool := c = '/' || c = '\\'

def hexByte (b : UInt8) : Text :=
  '%' :: (Nat.toDigits 16 (b.toNat / 16) ++ Nat.toDigits 16 (b.toNat % 16)).map Char.toUpper

def escape (unsafe_ : Char → Bool) (t : Text) : Text :=
  t.flatMap fun c =>
    if c.toNat ≤ 32 || 126 < c.toNat || unsafe_ c then (Utf8.encode [c]).flatMap hexByte else [c]

def escapePath (t : Text) : Text :=
  escape (fun c => c = '"' || c = '<' || c = '>' || c = '`' || c = '\x7b' || c = '\x7d') t

def escapeQuery (t : Text) : Text :=
  escape (fun c => c = '"' || c = '<' || c = '>' || c = '\'') t

def isDot (s : Text) : Bool := Text.lower s = ['.'] || Text.lower s = "%2e".toList

def isDoubleDot (s : Text) : Bool :=
  ["..".toList, ".%2e".toList, "%2e.".toList, "%2e%2e".toList].contains (Text.lower s)

/-- Walks the segments with the kept ones on a stack. A dot segment at the end leaves an empty one. -/
def resolve : List Text → List Text → List Text
  | kept, [] => kept.reverse
  | kept, [s] =>
    if isDoubleDot s then ([] :: kept.tail).reverse
    else if isDot s then ([] :: kept).reverse
    else (s :: kept).reverse
  | kept, s :: r =>
    if isDoubleDot s then resolve kept.tail r
    else if isDot s then resolve kept r
    else resolve (s :: kept) r

def pathFrom (directory : List Text) (t : Text) : Text :=
  '/' :: ['/'].intercalate ((resolve directory.reverse (t.splitOnP isSlash)).map escapePath)

def queryOf : Text → Option Text
  | '?' :: r => some (escapeQuery (r.takeWhile (· ≠ '#')))
  | _ => none

def endsPath (c : Char) : Bool := c = '?' || c = '#'

def atPath (u : Url) (directory : List Text) (t : Text) : Url :=
  { u with
    path := pathFrom directory (t.takeWhile (!endsPath ·))
    query := queryOf (t.dropWhile (!endsPath ·)) }

def isHostChar (c : Char) : Bool :=
  32 < c.toNat && c.toNat ≠ 127 && !(c ∈ "#/<>?@[\\]^|%:".toList)

def host? (t : Text) : Option Text :=
  match t with
  | '[' :: r =>
    if r.getLast? = some ']' && r.dropLast.all (fun c => c = ':' || c = '.' || (Text.hexValue? c).isSome)
    then some (Text.lower t) else none
  | _ => if t ≠ [] && t.all isHostChar then some (Text.lower t) else none

def port? (secure : Bool) : Text → Option (Option Nat)
  | [] | [':'] => some none
  | ':' :: r => do
    let n ← Text.digits? r
    if 65535 < n then none else some (if n = (if secure then 443 else 80) then none else some n)
  | _ => none

def hostEnd : Text → Nat
  | '[' :: r => (r.takeWhile (· ≠ ']')).length + 2
  | t => (t.takeWhile (· ≠ ':')).length

def withoutUser (t : Text) : Text := (t.reverse.takeWhile (· ≠ '@')).reverse

def ofAuthority? (secure : Bool) (t : Text) : Option Url := do
  let ends (c : Char) : Bool := isSlash c || endsPath c
  let authority := withoutUser (t.takeWhile (!ends ·))
  let host ← host? (authority.take (hostEnd authority))
  let port ← port? secure (authority.drop (hostEnd authority))
  let rest := t.dropWhile (!ends ·)
  let u : Url := ⟨secure, host, port, ['/'], none⟩
  match rest with
  | c :: r => if isSlash c then return u.atPath [] r else return { u with query := queryOf rest }
  | [] => return u

def clean (t : Text) : Text :=
  (Text.dropEndWhile (·.toNat ≤ 32) (t.dropWhile (·.toNat ≤ 32))).filter fun c =>
    c ≠ '\t' && c ≠ '\n' && c ≠ '\r'

def isSchemeChar (c : Char) : Bool := c.isAlphanum || c = '+' || c = '-' || c = '.'

def scheme? (t : Text) : Option (Text × Text) := do
  let (scheme, rest) ← Text.cut? ':' t
  if (scheme.head?.any Char.isAlpha) && scheme.all isSchemeChar then some (Text.lower scheme, rest)
  else none

def isSecure? (scheme : Text) : Option Bool :=
  if scheme = "https".toList then some true else if scheme = "http".toList then some false else none

/-- Reads an absolute address with the scheme `http` or `https`. The fragment is dropped. -/
def parse? (t : Text) : Option Url := do
  let (scheme, rest) ← scheme? (clean t)
  ofAuthority? (← isSecure? scheme) (rest.dropWhile isSlash)

def directory (u : Url) : List Text := (u.path.drop 1).splitOn '/' |>.dropLast

def join? (u : Url) (reference : Text) : Option Url :=
  let t := clean reference
  match scheme? t with
  | some (scheme, rest) =>
    match isSecure? scheme with
    | some s =>
      if s = u.secure && !(rest.head?.any isSlash) then some (relative u rest)
      else ofAuthority? s (rest.dropWhile isSlash)
    | none => none
  | none =>
    match t with
    | a :: b :: r => if isSlash a && isSlash b then ofAuthority? u.secure (r.dropWhile isSlash)
      else some (relative u t)
    | _ => some (relative u t)
where
  relative (u : Url) : Text → Url
    | [] => u
    | c :: r =>
      if isSlash c then u.atPath [] r
      else if c = '?' then { u with query := queryOf (c :: r) }
      else if c = '#' then u
      else u.atPath u.directory (c :: r)

def target (u : Url) : Text :=
  match u.query with
  | some q => u.path ++ '?' :: q
  | none => u.path

end Url

end BearerGate
