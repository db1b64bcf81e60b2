import BearerGate.Text.Basic

namespace BearerGate

/-- Spans and points of the monotonic clock, in milliseconds. -/
abbrev Millis := Nat

namespace Millis

def ofSeconds (s : Nat) : Millis := 1000 * s

def fraction (ms : Nat) : Text :=
  if ms = 0 then []
  else if ms % 100 = 0 then '.' :: Text.ofNat (ms / 100)
  else if ms % 10 = 0 then
    (if ms < 100 then ".0" else ".") ++ Text.ofNat (ms / 10)
  else (if ms < 10 then ".00" else if ms < 100 then ".0" else ".") ++ Text.ofNat ms

/-- In the largest unit of which there is at least one. -/
def text (d : Millis) : Text :=
  if d = 0 then "0ns"
  else if d < 1000 then Text.ofNat d ++ "ms"
  else Text.ofNat (d / 1000) ++ fraction (d % 1000) ++ "s"

end Millis

inductive Publication
  | discovery
  | keys
  deriving DecidableEq, Repr

def Publication.name : Publication → Text
  | discovery => "discovery document"
  | keys => "JWKS"

inductive FetchFault
  | request (url reason : Text)
  | status (url : Text) (code : Nat)
  | unreadable (what : Publication) (reason : Text)
  | mismatch (expected actual : Text)
  | noUsableKeys
  | timeout (after : Millis)
  deriving DecidableEq, Repr

def FetchFault.message : FetchFault → Text
  | request url reason => "Request to " ++ url ++ " failed: " ++ reason
  | status url code => "HTTP " ++ Text.ofNat code ++ " from " ++ url
  | unreadable what reason => "Failed to parse " ++ what.name ++ ": " ++ reason
  | mismatch expected actual =>
    "Discovery issuer mismatch: expected " ++ expected ++ ", got " ++ actual
  | noUsableKeys => "No usable signing keys in JWKS"
  | timeout d => "Fetch timed out after " ++ d.text

end BearerGate
