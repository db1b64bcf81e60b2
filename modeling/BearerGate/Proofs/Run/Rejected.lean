import BearerGate.Proofs.Run.Trace
import BearerGate.Proofs.Run.Twins

namespace BearerGate

/-- The stage in which a fault leaves an attempt whose token could be read at first. -/
def AuthFault.stage : AuthFault → Stage
  | untrusted _ | unreachable _ => .headerParsed
  | keyNotFound _ _ => .issuerResolved
  | signature | malformed _ => .keyResolved
  | claim _ => .signatureVerified

/-- A rejection is of a token that could not be read at all, or its stage is that of its fault. -/
inductive Rejection.Placed (raw : Text) : Rejection → Prop
  | unread {f} (h : Unverified.parse raw = .error f) : Placed raw ⟨.received, .malformed f⟩
  | read {t} (h : Unverified.parse raw = .ok t) (f : AuthFault) : Placed raw ⟨f.stage, f⟩

/-- Which faults a rejection has in which stage, read in both directions. -/
structure Rejection.Agrees (raw : Text) (r : Rejection) : Prop where
  received : r.stage = .received ↔ ∃ f, Unverified.parse raw = .error f
  malformed : ∀ f, Unverified.parse raw = .error f → r.fault = .malformed f
  headerParsed : r.stage = .headerParsed ↔ (∃ i, r.fault = .untrusted i) ∨ ∃ f, r.fault = .unreachable f
  issuerResolved : r.stage = .issuerResolved ↔ ∃ kid a, r.fault = .keyNotFound kid a
  keyResolved : r.stage = .keyResolved ↔
    r.fault = .signature ∨ (∃ t, Unverified.parse raw = .ok t) ∧ ∃ f, r.fault = .malformed f
  signatureVerified : r.stage = .signatureVerified ↔ ∃ f, r.fault = .claim f
  unfinished : r.stage ≠ .claimsValidated ∧ r.stage ≠ .authenticated ∧ r.stage ≠ .rejected

theorem Rejection.Placed.agrees {raw : Text} {r : Rejection} (h : r.Placed raw) : r.Agrees raw := by
  cases h with
  | unread hp => constructor <;> simp [hp]
  | read hp f => cases f <;> constructor <;> simp [AuthFault.stage, hp]

theorem Unverified.verify_error {t : Unverified} {k : SigningKey} {f : AuthFault}
    (h : t.verify k = .error f) : f.stage = .keyResolved := by
  rw [verify] at h
  split at h
  · obtain rfl := Except.error.inj h
    rfl
  · split at h
    · obtain rfl := Except.error.inj h
      rfl
    · split at h
      · split at h
        · cases h
        · obtain rfl := Except.error.inj h
          rfl
      · obtain rfl := Except.error.inj h
        rfl

namespace Gate

variable {rules : GateRules} {Q : Text → Outcome → Prop} {E : Text → TrustedIssuer → Prop} {unix : Int}
  {raw : Text} {t : Unverified} {e : TrustedIssuer} {r : Record} {k : SigningKey} {x : Rejection}

theorem conclude_error (h : conclude rules unix t e r k = .error x) : x.stage = x.fault.stage := by
  rw [conclude] at h
  split at h
  · rename_i f hf
    obtain rfl := Except.error.inj h
    exact (Unverified.verify_error hf).symm
  · split at h
    · obtain rfl := Except.error.inj h
      rfl
    · cases h

theorem afterRefresh_error {a : Except AuthFault Record}
    (h : afterRefresh rules unix t e a = .done (.error x)) : x.stage = x.fault.stage := by
  simp only [afterRefresh, reject] at h
  split at h
  · obtain rfl := Except.error.inj (Progress.done.inj h)
    rfl
  · split at h
    · exact conclude_error (Progress.done.inj h)
    · obtain rfl := Except.error.inj (Progress.done.inj h)
      rfl

theorem Decided.placed (h : Decided rules Q E unix raw (.error x)) : x.Placed raw := by
  have hread {t : Unverified} (hp : Unverified.parse raw = .ok t) (hx : x.stage = x.fault.stage) :
      x.Placed raw := by
    obtain ⟨stage, fault⟩ := x
    obtain rfl : stage = fault.stage := hx
    exact .read hp fault
  generalize hv : (Except.error x : Verdict) = v at h
  cases h with
  | malformed hp =>
      obtain rfl := Except.error.inj hv
      exact .unread hp
  | untrusted hp | unnamed hp =>
      obtain rfl := Except.error.inj hv
      exact hread hp rfl
  | unreachable hasked | refused hasked =>
      obtain rfl := Except.error.inj hv
      exact hread hasked.parsed rfl
  | concluded hasked => exact hread hasked.parsed (conclude_error hv.symm)
  | refreshed hasked _ _ _ hafter =>
      subst hv
      exact hread hasked.parsed (afterRefresh_error hafter)

end Gate

def GateRules.Strange (rules : GateRules) (raw : Text) : Prop :=
  ∀ t, Unverified.parse raw = .ok t → rules.trust.resolve? t.issuer = none

theorem Gate.verify_of_strange {rules : GateRules} {raw : Text} (h : rules.Strange raw) (now : Millis)
    (unix : Int) (g : Gate) : ∃ x, g.verify rules now unix raw = (g, .done (.error x)) := by
  rw [verify]
  cases hp : Unverified.parse raw with
  | error f => exact ⟨_, rfl⟩
  | ok t =>
      have hengine : g.engine rules t.issuer = (g, none) := by simp only [engine, h t hp]
      simp only [hengine]
      exact ⟨_, rfl⟩

namespace Run

variable {rules : GateRules} {s : Run} {raw : Text}

/-- The token is rejected at once. No fetch starts, and the gate is left as it was. -/
structure TurnsAway (rules : GateRules) (s : Run) (raw : Text) : Prop where
  result : ∃ x, (s.step rules (.call (.verify raw))).result? s.calls.length = some (.verdict (.error x))
  gate : (s.step rules (.call (.verify raw))).gate = s.gate
  starts : startedBy rules s (.call (.verify raw)) = []

theorem turnsAway (h : rules.Strange raw) (s : Run) : s.TurnsAway rules raw := by
  obtain ⟨x, hx⟩ := Gate.verify_of_strange h s.now s.unix s.gate
  have hstart : s.gate.start rules s.now s.unix (.verify raw) = (s.gate, .ended (.verdict (.error x))) := by
    rw [Gate.start, hx]
    rfl
  have hgate : (s.step rules (.call (.verify raw))).gate = s.gate := congrArg Prod.fst hstart
  refine ⟨⟨x, ?_⟩, hgate, startedBy_of_flights (congrArg (fun g => g.cache.flights) hgate)⟩
  rw [result?_call, hstart]
  rfl

/-- Stage and fault of a rejection agree, in whatever run, and a token that cannot be read or whose issuer is
not trusted changes nothing. -/
theorem rejects_consistently (rules : GateRules) (epoch : Int) (l : List Action) (raw : Text) :
    (∀ id x, ((requests l)[id]?).bind Request.token? = some raw →
        (after rules { epoch := epoch } l).result? id = some (.verdict (.error x)) → x.Agrees raw) ∧
      (rules.Strange raw → (after rules { epoch := epoch } l).TurnsAway rules raw) := by
  constructor
  · intro id x hreq hx
    obtain ⟨_, _, _, _, _, _, hdecided⟩ := decided_after hreq hx
    exact hdecided.placed.agrees
  · intro h
    exact turnsAway h _

def xyzToken : Text :=
  "eyJhbGciOiJFZERTQSIsImtpZCI6ImsifQ.eyJpc3MiOiJodHRwczovL2lkcC5leGFtcGxlL3h5eiJ9.AA"

theorem strange_xyzToken : abcRules.Strange xyzToken := by
  have hp : Unverified.parse xyzToken =
      .ok ⟨xyzToken, ⟨.edDSA, some "k", none, none⟩, "https://idp.example/xyz"⟩ := by
    decide +kernel
  intro t ht
  obtain rfl := Except.ok.inj (hp.symm.trans ht)
  decide

theorem rejects_consistently_forged :
    (after abcRules { epoch := 1700000000 } forgedRun).result? 0 =
        some (.verdict (.error ⟨.keyResolved, .signature⟩)) ∧
      Rejection.Agrees forgedToken ⟨.keyResolved, .signature⟩ ∧
        (after abcRules { epoch := 1700000000 } forgedRun).TurnsAway abcRules xyzToken := by
  have hended : (after abcRules { epoch := 1700000000 } forgedRun).result? 0 =
      some (.verdict (.error ⟨.keyResolved, .signature⟩)) := by
    decide +kernel
  obtain ⟨hagrees, -⟩ := rejects_consistently abcRules 1700000000 forgedRun forgedToken
  obtain ⟨-, haway⟩ := rejects_consistently abcRules 1700000000 forgedRun xyzToken
  exact ⟨hended, hagrees 0 _ rfl hended, haway strange_xyzToken⟩

end Run

end BearerGate
