import BearerGate.Json.Decode
import BearerGate.Key.Algorithm

namespace BearerGate

structure Header where
  alg : Algorithm
  kid : Option Text
  typ : Option Text
  cty : Option Text
  deriving DecidableEq, Repr

namespace Header

def fieldNames : List Text :=
  ["typ", "alg", "cty", "jku", "jwk", "kid", "x5u", "x5c", "x5t", "x5t#S256"]

/-- An algorithm is written as its name, or as an object with that name for its only member and
`null` for the value. -/
def algorithm? : Raw → Option Algorithm
  | .string s => (Raw.unquote? s).bind Algorithm.named?
  | .object [(k, .null)] => (Raw.unquote? k).bind Algorithm.named?
  | _ => none

/-- Every member is read and has to be well typed, also those that are dropped then; the array form
has all of them. Embedded keys are refused. -/
def ofRaw? (r : Raw) : Option Header := do
  let f ← r.fields? fieldNames
  if f.positional && f.values.any Option.isNone then none
  let text (i : Nat) := f.optional? i Raw.text?
  let typ ← text 0
  let alg ← f.required? 1 algorithm?
  let cty ← text 2
  let _ ← text 3
  let _ ← f.optional? 4 fun _ => (none : Option Unit)
  let kid ← text 5
  let _ ← text 6
  let _ ← f.optional? 7 (Raw.list? Raw.text?)
  let _ ← text 8
  let _ ← text 9
  return ⟨alg, kid, typ, cty⟩

end Header

end BearerGate
