import BearerGate.Json.Decode
import BearerGate.Json.Printer
import BearerGate.Json.Value

namespace BearerGate

/-- The payload of a token: the claims that the gate reads, and all others as they came. -/
structure Claims where
  iss : Option Text
  sub : Option Text
  aud : List Text
  exp : Option Int
  nbf : Option Int
  iat : Option Int
  scope : Option Text
  extra : List (Text × Json)
  deriving DecidableEq, Repr

namespace Claims

def fieldNames : List Text := ["iss", "sub", "aud", "exp", "nbf", "iat", "scope"]

def audience? : Raw → Option (List Text)
  | .null => some []
  | .string s => (Raw.unquote? s).map ([·])
  | .array items => items.mapM Raw.text?
  | _ => none

def buildExtra? : List (Text × Raw) → Option (List (Text × Json))
  | [] => some []
  | (k, v) :: r =>
    if k ∈ fieldNames then buildExtra? r
    else
      match v.build? (Raw.maxDepth - 1), buildExtra? r with
      | some v, some r => some (if r.any (·.1 = k) then r else (k, v) :: r)
      | _, _ => none

def ofRaw? : Raw → Option Claims
  | .object members => do
    let members ← Raw.names? members
    let values ← fieldNames.mapM fun n => Raw.only? n members
    let f : Raw.Fields := ⟨values, false⟩
    return {
      iss := ← f.optional? 0 Raw.text?
      sub := ← f.optional? 1 Raw.text?
      aud := ← f.withDefault? 2 [] audience?
      exp := ← f.optional? 3 Raw.int64?
      nbf := ← f.optional? 4 Raw.int64?
      iat := ← f.optional? 5 Raw.int64?
      scope := ← f.optional? 6 Raw.text?
      extra := ← buildExtra? members }
  | _ => none

def parse? (s : Bytes) : Option Claims := (Raw.parse? s).bind ofRaw?

def member {α : Type} (name : Text) (value : α → Json) (v : Option α) : List (Text × Json) :=
  v.toList.map fun a => (name, value a)

def toJson (c : Claims) : Json :=
  .object (member "iss" .string c.iss ++ member "sub" .string c.sub ++
    (if c.aud = [] then [] else [("aud".toList, .array (c.aud.map .string))]) ++
    member "exp" .int c.exp ++ member "nbf" .int c.nbf ++ member "iat" .int c.iat ++
    member "scope" .string c.scope ++ c.extra)

def sorted (c : Claims) : Claims := { c with extra := Json.byName (Json.sortedMembers c.extra) }

def text (c : Claims) : Text := c.sorted.toJson.print

end Claims

end BearerGate
