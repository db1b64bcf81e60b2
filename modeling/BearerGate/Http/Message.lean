import BearerGate.Http.Url

namespace BearerGate.Http

abbrev Fields := List (Text × Bytes)

def isSpace (b : UInt8) : Bool := b = 32 || b = 9

def fieldValue (raw : Bytes) : Bytes := ((raw.dropWhile isSpace).reverse.dropWhile isSpace).reverse

def isVisible (b : UInt8) : Bool := (32 ≤ b && b < 127) || b = 9

def Fields.text? (f : Fields) (name : Text) : Option Text := do
  let (_, raw) ← f.find? fun p => Text.lower p.1 = name
  let value := fieldValue raw
  if value.all isVisible then some (value.map fun b => Char.ofNat b.toNat) else none

def endsAuthority (c : Char) : Bool := c = '/' || Url.endsPath c

def afterAuthority? (target : Text) : Option Text := do
  let (scheme, rest) ← Text.cutAt? "://" target
  if scheme.all Url.isSchemeChar then some (rest.dropWhile (!endsAuthority ·)) else none

def beforeQuery (target : Text) : Text := target.takeWhile (!Url.endsPath ·)

/-- The path of a request target. In absolute form it is never empty. -/
def pathOf (target : Text) : Text :=
  match afterAuthority? target with
  | some rest => if beforeQuery rest = [] then ['/'] else beforeQuery rest
  | none => beforeQuery target

structure Request where
  method : Text
  target : Text
  fields : Fields
  deriving DecidableEq, Repr

structure Response where
  status : Nat
  fields : List (Text × Text)
  body : Text
  deriving DecidableEq, Repr

def fitsField (c : Char) : Bool := (32 ≤ c.toNat && c.toNat ≠ 127) || c = '\t'

/-- Adds a field whose value fits; any other value leaves the response as it is. -/
def Response.withField (r : Response) (name value : Text) : Response :=
  if value.all fitsField then { r with fields := r.fields ++ [(name, value)] } else r

def Response.sentFor (r : Response) (method : Text) : Response :=
  if method = "HEAD".toList then { r with body := [] } else r

def plain (status : Nat) (body : Text) : Response := ⟨status, [("content-type", "text/plain")], body⟩

end BearerGate.Http
