import BearerGate.Text.Base64Url
import BearerGate.Token.Header

namespace BearerGate

/-- Why a text is no token. The last cause is found only once a key is chosen. -/
inductive TokenFault
  | segments
  | header
  | payloadEncoding
  | payloadText
  | noIssuer
  | payload
  deriving DecidableEq, Repr

def TokenFault.message : TokenFault → Text
  | segments => "expected three non-empty segments"
  | header => "invalid header"
  | payloadEncoding => "invalid payload encoding"
  | payloadText => "invalid payload"
  | noIssuer => "missing issuer claim"
  | payload => "payload"

structure Unverified where
  raw : Text
  header : Header
  issuer : Text
  deriving DecidableEq, Repr

namespace Unverified

def segments? (raw : Text) : Option (Text × Text × Text) :=
  match raw.splitOn '.' with
  | [a, b, c] => if a = [] ∨ b = [] ∨ c = [] then none else some (a, b, c)
  | _ => none

def decodeHeader? (segment : Text) : Option Header :=
  (Base64Url.decode? segment).bind fun b => (Raw.parse? b).bind Header.ofRaw?

/-- The claimed issuer of a payload, which may also be an array that starts with it. -/
def claimedIssuer? (r : Raw) : Option (Option Text) := do
  let f ← r.fields? ["iss"]
  f.optional? 0 Raw.text?

def parse (text : Text) : Except TokenFault Unverified := do
  let raw := Text.trim text
  let some (head, body, _) := segments? raw | throw .segments
  let some header := decodeHeader? head | throw .header
  let some bytes := Base64Url.decode? (Text.dropEndWhile (· = '=') body) | throw .payloadEncoding
  let some claimed := (Raw.parse? bytes).bind claimedIssuer? | throw .payloadText
  match claimed.map Text.trim with
  | some (c :: r) => return ⟨raw, header, c :: r⟩
  | _ => throw .noIssuer

end Unverified

end BearerGate
