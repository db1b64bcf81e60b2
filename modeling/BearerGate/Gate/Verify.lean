import BearerGate.Gate.Basic

namespace BearerGate

def Unverified.verify (t : Unverified) (k : SigningKey) : Except AuthFault Claims :=
  match Unverified.segments? t.raw with
  | none => .error .signature
  | some (head, body, signature) =>
    match Base64Url.decode? signature with
    | none => .error (.malformed .payload)
    | some s =>
      if k.material.verifies t.header.alg (Utf8.encode (head ++ '.' :: body)) s then
        match (Base64Url.decode? body).bind Claims.parse? with
        | some c => .ok c
        | none => .error (.malformed .payload)
      else .error .signature

namespace Gate

inductive Phase
  | lookup
  | refresh
  deriving DecidableEq, Repr

structure Attempt where
  token : Unverified
  issuer : TrustedIssuer
  phase : Phase
  ticket : Ticket
  deriving DecidableEq, Repr

inductive Progress
  | done (v : Verdict)
  | wait (a : Attempt)

def reject (s : Stage) (f : AuthFault) : Progress := .done (.error ⟨s, f⟩)

def keyNotFound (t : Unverified) : AuthFault := .keyNotFound t.header.kid t.header.alg

def conclude (rules : GateRules) (unix : Int) (t : Unverified) (i : TrustedIssuer) (r : Record)
    (k : SigningKey) : Verdict :=
  match t.verify k with
  | .error f => .error ⟨.keyResolved, f⟩
  | .ok claims =>
    match Validation.check i rules.validation r.issuer rules.service claims unix with
    | .error f => .error ⟨.signatureVerified, .claim f⟩
    | .ok v => .ok (Principal.make v i rules.service)

/-- After a forced refresh: the key is in the record that it gave, or nowhere. -/
def afterRefresh (rules : GateRules) (unix : Int) (t : Unverified) (i : TrustedIssuer)
    (a : Except AuthFault Record) : Progress :=
  match a with
  | .error _ => reject .issuerResolved (keyNotFound t)
  | .ok r =>
    match r.selectKey t with
    | .ok k => .done (conclude rules unix t i r k)
    | .error _ => reject .issuerResolved (keyNotFound t)

/-- After the lookup of the issuer: an absent key forces one refresh. -/
def afterLookup (rules : GateRules) (now : Millis) (unix : Int) (t : Unverified) (i : TrustedIssuer)
    (a : Except AuthFault Record) (c : Cache) : Cache × Progress :=
  match a with
  | .error f => (c, reject .headerParsed f)
  | .ok r =>
    match r.selectKey t with
    | .ok k => (c, .done (conclude rules unix t i r k))
    | .error .refused => (c, reject .issuerResolved (keyNotFound t))
    | .error .absent =>
      match { c with tally := c.tally.keyRefresh }.refresh rules.cache now r with
      | (c, .wait ticket) => (c, .wait ⟨t, i, .refresh, ticket⟩)
      | (c, .done a) => (c, afterRefresh rules unix t i a)

def verify (rules : GateRules) (now : Millis) (unix : Int) (raw : Text) (g : Gate) :
    Gate × Progress :=
  match Unverified.parse raw with
  | .error f => (g, reject .received (.malformed f))
  | .ok t =>
    match g.engine rules t.issuer with
    | (g, none) => (g, reject .headerParsed (.untrusted t.issuer))
    | (g, some i) =>
      match g.cache.get rules.cache now i.url with
      | (c, .wait ticket) => ({ g with cache := c }, .wait ⟨t, i, .lookup, ticket⟩)
      | (c, .done a) =>
        let (c, p) := afterLookup rules now unix t i a c
        ({ g with cache := c }, p)

def resume (rules : GateRules) (now : Millis) (unix : Int) (a : Attempt) (o : Outcome) (g : Gate) :
    Gate × Progress :=
  match a.phase with
  | .lookup =>
    let (c, r) := g.cache.finishGet now a.ticket.issuer o
    let (c, p) := afterLookup rules now unix a.token a.issuer r c
    ({ g with cache := c }, p)
  | .refresh => (g, afterRefresh rules unix a.token a.issuer (Cache.finishRefresh o))

end Gate

end BearerGate
