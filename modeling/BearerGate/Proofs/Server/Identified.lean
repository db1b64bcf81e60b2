import BearerGate.Proofs.Run.Acceptance
import BearerGate.Proofs.Run.Returned
import BearerGate.Proofs.Server.ForwardAuth

namespace BearerGate

namespace Http

def Fits (value : Text) : Prop := ∀ c ∈ value, fitsField c = true

instance (value : Text) : Decidable (Fits value) := List.decidableBAll (fun c => fitsField c = true) value

theorem fields_withField (r : Response) (name value : Text) :
    (r.withField name value).fields = r.fields ++ [(name, value)].filter fun f => Fits f.2 := by
  rw [Response.withField, List.filter_singleton]
  by_cases h : Fits value
  · rw [if_pos (List.all_eq_true.mpr h), decide_eq_true h, cond_true]
  · rw [if_neg fun hall => h (List.all_eq_true.mp hall), decide_eq_false h, cond_false, List.append_nil]

def identityNames : List Text := ["x-auth-subject", "x-auth-issuer", "x-auth-tenant"]

def Response.identity (r : Response) : List (Text × Text) := r.fields.filter fun f => identityNames.contains f.1

end Http

open Http

def Principal.identity (p : Principal) : List (Text × Text) :=
  ("x-auth-subject", p.subject) :: ("x-auth-issuer", p.issuer) ::
    p.tenant.toList.map fun id => ("x-auth-tenant", id)

def Principal.FitsFields (p : Principal) : Prop := ∀ f ∈ p.identity, Fits f.2

/-- Whoever is accepted has a URL, and serves tenants, that can stand in a field. -/
def TrustPolicy.FitsFields (p : TrustPolicy) : Prop :=
  ∀ claimed i, p.resolve? claimed = some i → Fits i.url ∧ ∀ id, i.acceptsTenant id = true → Fits id

theorem Principal.fitsFields_iff {p : Principal} :
    p.FitsFields ↔ Fits p.subject ∧ Fits p.issuer ∧ ∀ id, p.tenant = some id → Fits id := by
  rw [FitsFields, identity]
  cases p.tenant with
  | none => simp
  | some id => simp

namespace Run

variable {rules : GateRules} {s : Run} {l : List Action} {raw : Text} {p : Principal}

theorem Ends.unique {req : Request} {x y : Result} (hx : s.Ends rules req l x) (hy : s.Ends rules req l y) :
    x = y := by
  obtain ⟨l₁, a, hl, -, hx⟩ := hx
  obtain ⟨l₂, b, hl', -, hy⟩ := hy
  rw [← hl] at hx
  rw [← hl', hx] at hy
  exact Option.some.inj hy

/-- Where the principal of a good token comes from: issuer and tenant from an issuer that is accepted under some
spelling, the subject from the claims of the token. -/
theorem Ends.principal (hs : s.Reachable rules)
    (h : s.Ends rules (.authenticate raw) l (.verdict (.ok p))) :
    ∃ claimed i t k c, rules.trust.resolve? claimed = some i ∧ p.issuer = i.url ∧
      (∀ id, p.tenant = some id → i.acceptsTenant id = true) ∧
        Unverified.parse raw = .ok t ∧ t.Signed k c ∧ Validation.subject c = .ok p.subject := by
  obtain ⟨epoch, l₀, rfl⟩ := hs
  obtain ⟨l₁, a, hl, -, hx⟩ := h
  rw [← hl, ← after_append] at hx
  have hreq : ((requests (l₀ ++ .call (.authenticate raw) :: l))[
      (after rules { epoch := epoch } l₀).calls.length]?).bind Request.token? = some raw := by
    rw [length_calls, requests, List.filterMap_append]
    simp [requests, Action.request?, Request.token?]
  obtain ⟨l₁, a, l₂, -, -, -, hdecided⟩ := decided_after hreq hx
  obtain ⟨t, e, i, r, k, hasked, -, -, hconclude⟩ := hdecided.concluded_of_ok fun i r hl => hl.issuer
  obtain ⟨c, w, hverify, hcheck, rfl⟩ := Gate.conclude_ok hconclude
  have hpassed := Validation.check_passed hcheck
  obtain ⟨-, claimed, -, he, -⟩ := hasked.engine
  exact ⟨claimed, e, t, k, c, he, rfl, (Validation.tenant_ok hpassed.tenant).1, hasked.parsed,
    Unverified.verify_ok hverify, hpassed.subject⟩

end Run

namespace Server

variable {v : Server} {r : Http.Request} {s : Run} {l : List Action} {x : Response} {p : Principal}

theorem identity_identified (p : Principal) :
    (identified p).identity = p.identity.filter fun f => Fits f.2 := by
  have hfields : (identified p).fields = allowed.fields ++ p.identity.filter fun f => Fits f.2 := by
    rw [identified, Principal.identity]
    cases p.tenant with
    | none => simp only [fields_withField, List.append_assoc, ← List.filter_append]; rfl
    | some id => simp only [fields_withField, List.append_assoc, ← List.filter_append]; rfl
  have hnames : ∀ f ∈ p.identity, f.1 ∈ identityNames := by
    rw [Principal.identity]
    cases p.tenant <;> simp [identityNames]
  have hallowed : allowed.identity = [] := by decide
  rw [Response.identity] at hallowed
  rw [Response.identity, hfields, List.filter_append, hallowed, List.nil_append, List.filter_eq_self]
  exact fun f hf => List.contains_iff_mem.mpr (hnames f (List.mem_of_mem_filter hf))

/-- The token of the request is judged in the given state, and by the end of the actions it is good for the
principal. -/
def Admits (v : Server) (s : Run) (r : Http.Request) (l : List Action) (p : Principal) : Prop :=
  ∃ token, bearerToken? (r.fields.text? "authorization") = some token ∧
    v.plan s.gate r = .authenticate token ∧ s.Ends v.rules (.authenticate token) l (.verdict (.ok p))

/-- Answers to the request name nobody but the principal that it is good for, and they name it in full. -/
def Faithful (v : Server) (s : Run) (r : Http.Request) : Prop :=
  ∀ l x, v.Answers s r l x → (x.identity ≠ [] → ∃ p, v.Admits s r l p) ∧
    ∀ p, v.Admits s r l p → x.status = 200 → x.identity = p.identity

theorem Answers.admitted (ha : v.Answers s r l x) (h : v.Admits s r l p) :
    x = (identified p).sentFor r.method := by
  obtain ⟨token, -, hplan, hends⟩ := h
  cases ha with
  | known x hx => cases hplan.symm.trans hx
  | judged token' l verdict hx hv =>
      obtain rfl := Plan.authenticate.inj (hplan.symm.trans hx)
      obtain rfl := Result.verdict.inj (hv.unique hends)
      rfl

theorem Admits.answers (h : v.Admits s r l p) : v.Answers s r l ((identified p).sentFor r.method) := by
  obtain ⟨token, -, hplan, hends⟩ := h
  exact .judged token l (.ok p) hplan hends

theorem IsCheck.admits (hr : IsCheck r) (ha : v.Answers s r l x) (hx : x.identity ≠ []) :
    ∃ p, v.Admits s r l p := by
  by_cases hd : v.guard.decide (Forwarded.ofRequest r).method (Forwarded.ofRequest r).uri = .authenticate
  · rcases hr.challenged hd ha with rfl | ⟨-, token, p, hadmits⟩
    · exact absurd (by decide) hx
    · exact ⟨p, token, hadmits⟩
  · obtain rfl := (hr.allowed hd s).2 l x ha
    exact absurd (by decide) hx

theorem Admits.fitsFields_iff (h : v.Admits s r l p) (hs : s.Reachable v.rules)
    (ht : v.rules.trust.FitsFields) : p.FitsFields ↔ Fits p.subject := by
  obtain ⟨token, -, -, hends⟩ := h
  obtain ⟨claimed, i, -, -, -, hi, hissuer, htenant, -⟩ := hends.principal hs
  obtain ⟨hurl, hserves⟩ := ht claimed i hi
  rw [Principal.fitsFields_iff]
  exact ⟨And.left, fun hsubject => ⟨hsubject, hissuer ▸ hurl, fun id hid => hserves id (htenant id hid)⟩⟩

/-- Only the principal of a good token is ever named, with those of its fields whose values fit. So the answers
are faithful exactly when all values fit; with URLs and tenants in the configuration that fit, when all subjects
do. -/
theorem faithful_iff (hr : IsCheck r) (v : Server) (s : Run) :
    (∀ l x, v.Answers s r l x → x.identity ≠ [] → ∃ p, v.Admits s r l p) ∧
      (∀ l x p, v.Answers s r l x → v.Admits s r l p →
        x.status = 200 ∧ x.identity = p.identity.filter fun f => Fits f.2) ∧
        (v.Faithful s r ↔ ∀ l p, v.Admits s r l p → p.FitsFields) ∧
          (s.Reachable v.rules → v.rules.trust.FitsFields →
            (v.Faithful s r ↔ ∀ l p, v.Admits s r l p → Fits p.subject)) := by
  have hnamed : ∀ l x p, v.Answers s r l x → v.Admits s r l p →
      x.status = 200 ∧ x.identity = p.identity.filter fun f => Fits f.2 := by
    intro l x p ha h
    rw [ha.admitted h, hr.sentFor]
    exact ⟨status_identified p, identity_identified p⟩
  have hfaithful : v.Faithful s r ↔ ∀ l p, v.Admits s r l p → p.FitsFields := by
    constructor
    · intro hf l p h
      have hall := (hf l _ h.answers).2 p h (hnamed l _ p h.answers h).1
      rw [(hnamed l _ p h.answers h).2, List.filter_eq_self] at hall
      exact fun f hmem => of_decide_eq_true (hall f hmem)
    · intro hf l x ha
      refine ⟨hr.admits ha, fun p h _ => ?_⟩
      rw [(hnamed l x p ha h).2, List.filter_eq_self]
      exact fun f hmem => decide_eq_true (hf l p h f hmem)
  refine ⟨fun l x => hr.admits, hnamed, hfaithful, fun hs ht => hfaithful.trans ?_⟩
  exact forall₃_congr fun l p h => h.fitsFields_iff hs ht

def checkFor (token : Text) : Http.Request :=
  ⟨"GET", "/auth", [("x-forwarded-uri", Utf8.encode "/file/v1/a"),
    ("authorization", Utf8.encode ("Bearer " ++ token))]⟩

def started : Run := { epoch := 1700000000 }

def fetched (d : Document) : List Action := [.land ⟨"https://idp.example/abc", 0⟩ (.ok d), .resume 0]

theorem isCheck_checkFor (token : Text) : IsCheck (checkFor token) where
  method := rfl
  path := by
    have hpath : Http.pathOf "/auth" = "/auth".toList := by decide
    exact hpath

theorem fitsFields_fileServer : fileServer.rules.trust.FitsFields := by
  intro claimed i hi
  rcases TrustPolicy.resolve?_cases hi with hi | ⟨-, rule, hrule, -⟩
  · obtain ⟨-, e, he, hlisted⟩ := TrustPolicy.exists_listed hi
    obtain rfl := List.mem_singleton.mp he
    obtain rfl := Option.some.inj hlisted
    refine ⟨by decide, fun id hid => ?_⟩
    obtain rfl := of_decide_eq_true hid
    decide
  · cases hrule

theorem admits_fetched {token : Text} {d : Document}
    (h : bearerToken? ((checkFor token).fields.text? "authorization") = some token ∧
      fileServer.plan started.gate (checkFor token) = .authenticate token ∧
        (Run.after fileServer.rules started
          [.call (.authenticate token), .land ⟨"https://idp.example/abc", 0⟩ (.ok d)]).result? 0 = none ∧
          (Run.after fileServer.rules started (.call (.authenticate token) :: fetched d)).result? 0 =
            some (.verdict (.ok p))) :
    fileServer.Admits started (checkFor token) (fetched d) p := by
  obtain ⟨hbearer, hplan, hnone, hsome⟩ := h
  exact ⟨token, hbearer, hplan, _, .resume 0, rfl, hnone, hsome⟩

theorem admits_abc :
    fileServer.Admits started (checkFor Run.abcToken) (fetched Run.abcDocument) Run.abcPrincipal :=
  admits_fetched (by decide +kernel)

theorem subject_abc (h : fileServer.Admits started (checkFor Run.abcToken) l p) : p.subject = "u" := by
  obtain ⟨token, htoken, -, hends⟩ := h
  have hbearer : bearerToken? ((checkFor Run.abcToken).fields.text? "authorization") = some Run.abcToken := by
    decide +kernel
  obtain rfl := Option.some.inj (hbearer.symm.trans htoken)
  obtain ⟨-, -, t, k, c, -, -, -, ht, ⟨head, body, signature, -, hsegments, -, -, hc⟩, hsubject⟩ :=
    hends.principal ⟨1700000000, [], rfl⟩
  have hread : (Unverified.parse Run.abcToken).map Unverified.raw = .ok Run.abcToken ∧
      ((Unverified.segments? Run.abcToken).bind fun q =>
        (Base64Url.decode? q.2.1).bind Claims.parse?).map Validation.subject = some (.ok "u") := by
    decide +kernel
  obtain ⟨hraw, hclaims⟩ := hread
  rw [ht] at hraw
  rw [Except.ok.inj hraw] at hsegments
  rw [hsegments, Option.bind_some, hc, Option.map_some, hsubject] at hclaims
  exact Except.ok.inj (Option.some.inj hclaims)

theorem faithful_abc :
    fileServer.Faithful started (checkFor Run.abcToken) ∧
      ∃ x, fileServer.Answers started (checkFor Run.abcToken) (fetched Run.abcDocument) x ∧
        x.identity = Run.abcPrincipal.identity := by
  obtain ⟨-, hnamed, -, hfaithful⟩ := faithful_iff (isCheck_checkFor Run.abcToken) fileServer started
  refine ⟨(hfaithful ⟨1700000000, [], rfl⟩ fitsFields_fileServer).mpr fun l p h => ?_, ?_⟩
  · rw [subject_abc h]
    decide
  · exact ⟨_, admits_abc.answers, (hnamed _ _ _ admits_abc.answers admits_abc).2.trans (by decide)⟩

def brokenToken : Text :=
  "eyJhbGciOiJFZERTQSIsImtpZCI6ImsifQ." ++
    "eyJpc3MiOiJodHRwczovL2lkcC5leGFtcGxlL2FiYyIsInN1YiI6ImFcbmIiLCJhdWQiOiJ1cm46YWRzOnA6cyIsImV4" ++
    "cCI6MTcwMDAwMDMwMH0." ++
    "mbrElynfLN4t_5Z1JzazFbtihpJAkntX8O2OOObTMYKx0w0gr8PvwcqbdoNilX6M29wZmIDQxhEXUAGypwcHCg"

def brokenDocument : Document where
  metadata := Run.abcDocument.metadata
  jwks := [⟨"OKP", some "k", none, none, none, none, some "Ed25519",
    some "ieo2RwMUag6GOvVbaEfzVkmMtHTjtKGdVsrKIPruaco", none⟩]
  maxAge := none

def brokenPrincipal : Principal := { Run.abcPrincipal with subject := "a\nb" }

theorem admits_broken :
    fileServer.Admits started (checkFor brokenToken) (fetched brokenDocument) brokenPrincipal :=
  admits_fetched (by decide +kernel)

/-- The user is let in, and the proxy is told the issuer and the tenant but no subject. -/
theorem not_faithful_broken :
    (∃ x, fileServer.Answers started (checkFor brokenToken) (fetched brokenDocument) x ∧ x.status = 200 ∧
        x.identity = [("x-auth-issuer".toList, "https://idp.example/abc".toList),
          ("x-auth-tenant".toList, "t".toList)]) ∧
      fileServer.Admits started (checkFor brokenToken) (fetched brokenDocument) brokenPrincipal ∧
        ¬fileServer.Faithful started (checkFor brokenToken) := by
  refine ⟨⟨_, admits_broken.answers, by decide, by decide⟩, admits_broken, fun h => ?_⟩
  have hnamed := (h _ _ admits_broken.answers).2 _ admits_broken (by decide)
  exact absurd hnamed (by decide)

end Server

end BearerGate
