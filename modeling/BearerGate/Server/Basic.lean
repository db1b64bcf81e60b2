import BearerGate.Access.Guard
import BearerGate.Http.Message
import BearerGate.Metrics
import BearerGate.Rehearsal
import BearerGate.Server.Address

namespace BearerGate

/-- What the forward-auth server is set up with. A proxy asks it about each request and passes the
request on when the answer is 200. -/
structure Server where
  rules : GateRules
  guard : Guard
  showsMetrics : Bool
  address : Address

namespace Server

inductive Fault
  | identity (fault : Identity.Fault)
  | address
  deriving DecidableEq, Repr

def Fault.message : Fault → Text
  | identity f => f.message
  | address => "Failed to bind to address: Invalid address: invalid socket address syntax"

def ofSettings (s : Settings) : Except Fault Server := do
  let rules ← (GateRules.ofSettings s).mapError .identity
  let some address := Address.parse? s.address | throw .address
  return ⟨rules, .ofPatterns s.access.apiPatterns s.access.publicPaths, s.metricsEnabled, address⟩

/-- What a proxy says about the request it asks about. Where it says nothing, the request is the
question itself, for the root. -/
structure Forwarded where
  method : Text
  uri : Text
  authorization : Option Text
  deriving DecidableEq, Repr

def Forwarded.ofRequest (r : Http.Request) : Forwarded where
  method := (r.fields.text? "x-forwarded-method".toList).getD r.method
  uri := (r.fields.text? "x-forwarded-uri".toList).getD ['/']
  authorization := r.fields.text? "authorization".toList

inductive Plan
  | answer (r : Http.Response)
  | authenticate (token : Text)
  deriving DecidableEq, Repr

def allowed : Http.Response := Http.plain 200 []

def unauthorized : Http.Response :=
  (Http.plain 401 "Unauthorized").withField "www-authenticate" "Bearer error=\"invalid_token\""

def notFound : Http.Response := Http.plain 404 "Not Found"

def health : Http.Response :=
  ⟨200, [("content-type", "application/json")], "\x7b\"status\":\"ok\"\x7d"⟩

def metrics (g : Gate) : Http.Response :=
  ⟨200, [("content-type", Exposition.contentType)],
    (Exposition.lines g.families).flatMap (· ++ ['\n'])⟩

def forwardAuth (s : Server) (f : Forwarded) : Plan :=
  match s.guard.decide f.method f.uri with
  | .readable | .free => .answer allowed
  | .authenticate =>
    match bearerToken? f.authorization with
    | some token => .authenticate token
    | none => .answer unauthorized

def plan (s : Server) (g : Gate) (r : Http.Request) : Plan :=
  let path := Http.pathOf r.target
  if r.method ≠ "GET".toList then .answer notFound
  else if path = "/auth".toList then s.forwardAuth (.ofRequest r)
  else if path = "/health".toList then .answer health
  else if path = "/metrics".toList ∧ s.showsMetrics then .answer (metrics g)
  else .answer notFound

def identified (p : Principal) : Http.Response :=
  let r := (allowed.withField "x-auth-subject" p.subject).withField "x-auth-issuer" p.issuer
  match p.tenant with
  | some t => r.withField "x-auth-tenant" t
  | none => r

def conclude : Verdict → Http.Response
  | .ok p => identified p
  | .error _ => unauthorized

/-- Answers a request, for which time passes while a token is judged. -/
def serve (s : Server) (r : Http.Request) (p : Rehearsal) : Rehearsal × Http.Response :=
  let (p, response) :=
    match s.plan p.run.gate r with
    | .answer response => (p, response)
    | .authenticate token =>
      match p.ask [.authenticate token] with
      | (p, [.verdict v]) => (p, conclude v)
      | (p, _) => (p, unauthorized)
  (p, response.sentFor r.method)

end Server

end BearerGate
