import BearerGate.Http.Message
import BearerGate.Http.Url
import BearerGate.Issuer.CacheControl
import BearerGate.Issuer.Record

namespace BearerGate.Discovery

structure Page where
  status : Nat
  fields : Http.Fields
  body : Bytes
  deriving DecidableEq, Repr

inductive Reply
  | page (p : Page)
  | silence
  | refused
  deriving DecidableEq, Repr

abbrev Network := Url → Reply

inductive Fault
  | address
  | connection
  | redirects
  | timeout
  deriving DecidableEq, Repr

def Fault.reason : Fault → Text
  | address => "builder error"
  | connection => "error sending request"
  | redirects => "error following redirect"
  | timeout => "operation timed out"

def maxRedirects : Nat := 10

def isRedirect (status : Nat) : Bool := status ∈ [301, 302, 303, 307, 308]

def Page.location? (p : Page) (u : Url) : Option Url :=
  if isRedirect p.status then
    (p.fields.find? fun f => Text.lower f.1 = "location".toList).bind fun f =>
      (Utf8.decode? (Http.fieldValue f.2)).bind u.join?
  else none

/-- Asks for an address, and for the next one as long as `n` redirects are left. The addresses that
reached a server are listed. -/
def visit (net : Network) : Nat → Url → List Url × Except Fault Page
  | n, u =>
    match net u with
    | .refused => ([], .error .connection)
    | .silence => ([u], .error .timeout)
    | .page p =>
      match p.location? u, n with
      | none, _ => ([u], .ok p)
      | some _, 0 => ([u], .error .redirects)
      | some v, n + 1 =>
        let (asked, r) := visit net n v
        (u :: asked, r)

def isSuccess (status : Nat) : Bool := 200 ≤ status && status < 300

def get (net : Network) (limit : Millis) (url : Text) : List Url × Except FetchFault Page :=
  match Url.parse? url with
  | none => ([], .error (.request url Fault.address.reason))
  | some u =>
    let (asked, r) := visit net maxRedirects u
    (asked,
      match r with
      | .error .timeout => .error (.timeout limit)
      | .error f => .error (.request url f.reason)
      | .ok p => if isSuccess p.status then .ok p else .error (.status url p.status))

def Page.maxAge? (p : Page) : Option Millis :=
  ((p.fields.text? "cache-control".toList).bind CacheControl.maxAge?).map Millis.ofSeconds

def readMetadata (issuer : Text) (p : Page) : Except FetchFault Metadata :=
  match (Raw.parse? p.body).bind Metadata.ofRaw? with
  | none => .error (.unreadable .discovery "invalid JSON")
  | some m => if m.issuer = issuer then .ok m else .error (.mismatch issuer m.issuer)

def readKeys (p : Page) : Except FetchFault Jwks :=
  match (Raw.parse? p.body).bind Jwks.ofRaw? with
  | none => .error (.unreadable .keys "invalid JSON")
  | some k => .ok k

def fetch (net : Network) (limit : Millis) (issuer : Text) : List Url × Except FetchFault Document :=
  match get net limit (discoveryUrl issuer) with
  | (asked, .error f) => (asked, .error f)
  | (asked, .ok page) =>
    match readMetadata issuer page with
    | .error f => (asked, .error f)
    | .ok m =>
      let (more, r) := get net limit m.jwksUri
      (asked ++ more, do
        let page ← r
        return ⟨m, ← readKeys page, page.maxAge?⟩)

def nowhere : Network := fun _ => .refused

end BearerGate.Discovery
