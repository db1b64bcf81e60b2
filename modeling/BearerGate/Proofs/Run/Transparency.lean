import BearerGate.Proofs.Run.Shadow

namespace BearerGate

theorem Gate.engine_congr (rules : GateRules) (claimed : Text) {g g' : Gate} (h : g.engines = g'.engines) :
    (g.engine rules claimed).2 = (g'.engine rules claimed).2 := by
  simp only [engine]
  rw [h]
  split
  · rfl
  · split <;> rfl

theorem Gate.EnginesBound.engine_eq {rules : GateRules} {g : Gate} (h : g.EnginesBound rules)
    (hu : rules.trust.Unambiguous) (claimed : Text) :
    (g.engine rules claimed).2 = rules.trust.resolve? claimed := by
  cases he : (g.engine rules claimed).2 with
  | none => exact (engine_none he).symm
  | some e =>
      obtain ⟨i, claimed', hi, hc, hurl⟩ := h.binds he
      rw [hi, hu claimed' claimed e i hc hi hurl]

namespace Run

/-- Nothing is known of the issuers any more, but for the engines. -/
def forgotten (s : Run) : Run where
  epoch := s.unix
  gate := { engines := s.gate.engines }

def renewed (s : Run) : Run := { epoch := s.unix }

theorem ask_forgotten (rules : GateRules) (source : Text → Except FetchFault Document) (s : Run) (raw : Text) :
    ask rules source s.forgotten (.verify raw) =
      some (.verdict (Gate.uncached rules source (fun u => (s.gate.engine rules u).2) s.unix raw)) := by
  have hunix : s.forgotten.unix = s.unix := unix_of_epoch _ _
  rw [ask_verify rules source .empty .empty, hunix]
  congr 3
  funext u
  exact Gate.engine_congr rules u rfl

theorem ask_renewed (rules : GateRules) (source : Text → Except FetchFault Document) (s : Run) (raw : Text) :
    ask rules source s.renewed (.verify raw) =
      some (.verdict (Gate.uncached rules source rules.trust.resolve? s.unix raw)) := by
  have hunix : s.renewed.unix = s.unix := unix_of_epoch _ _
  rw [ask_verify rules source .empty .empty, hunix]
  congr 3
  funext u
  simp only [renewed, Gate.engine, List.lookup_nil]
  split <;> simp_all

/-- Nothing that was fetched before makes a difference. When the issuers always answer the same and at once,
a token gets the same verdict after any run as it would get if only the engines were kept; and as from a
new gate, exactly if each canonical URL stands for one issuer. -/
theorem transparent (rules : GateRules) (c : TrustSettings) (hc : rules.trust = .ofSettings c) :
    (∀ source epoch l raw, Honest source l →
      ∃ v, ask rules source (after rules { epoch := epoch } l) (.verify raw) = some (.verdict v) ∧
        ask rules source (after rules { epoch := epoch } l).forgotten (.verify raw) = some (.verdict v)) ∧
      (rules.trust.Unambiguous ↔
        ∀ source epoch l raw, Honest source l →
          ask rules source (after rules { epoch := epoch } l) (.verify raw) =
            ask rules source (after rules { epoch := epoch } l).renewed (.verify raw)) := by
  refine ⟨fun source epoch l raw hl => ?_, fun hu source epoch l raw hl => ?_, fun h => ?_⟩
  · exact ⟨_, ask_after rules epoch hl raw, ask_forgotten rules source _ raw⟩
  · rw [ask_after rules epoch hl, ask_renewed]
    congr 3
    funext u
    exact (sound_after rules epoch l).engines.engine_eq hu u
  · by_contra hu
    rw [hc] at hu
    obtain ⟨u, i, j, hs⟩ := TrustPolicy.exists_shadows hu
    rw [← hc] at hs
    obtain ⟨hold, hnew⟩ := ask_shadowed hs
    have he := h Neutral.source 0 (shadowRun rules u i.url) (Neutral.token i.url rules.service.urn)
      (honest_shadowRun rules u i.url)
    rw [hold, renewed, unix_shadowRun, hnew] at he
    obtain ⟨id, hid⟩ := hs.tenant
    exact hs.ne (Neutral.eq_of_principal_eq hid hs.url (by simpa using he))

/-- A realm rule and, if it is listed too, an issuer under a URL that the rule gives when its base URL ends
in white space. -/
def realmSettings (base : Text) (listed : List IssuerSettings) : TrustSettings where
  issuers := listed
  realms := some ⟨base, [("a", "realm")]⟩

def realmRules (base : Text) (listed : List IssuerSettings) : GateRules :=
  ⟨.ofSettings (realmSettings base listed), .ofSettings {}, .ofSettings (realmSettings base listed), ⟨"p", "s"⟩⟩

def keySource (i : Text) : Except FetchFault Document :=
  .ok
    { metadata := ⟨i, none, none, "https://idp.example/keys", []⟩
      jwks := [⟨"OKP", some "k", none, none, none, none, some "Ed25519",
        some "DZR1rSAnWZNeWqqvusH5Af3N5vS5QoKdcu-M61KA-ys", none⟩]
      maxAge := none }

def realmToken : Text := "eyJhbGciOiJIUzI1NiJ9.eyJpc3MiOiJodHRwczovL2lkcC5leGFtcGxlL3JlYWxtcy9hIn0.AA"

def listedToken : Text :=
  "eyJhbGciOiJFZERTQSIsImtpZCI6ImsifQ." ++
    "eyJpc3MiOiJodHRwczovL2lkcC5leGFtcGxlL3JlYWxtcyAvYSIsInN1YiI6InUiLCJhdWQiOiJ1cm46YWRzOnA6" ++
    "cyIsImV4cCI6MTcwMDAwMDMwMH0." ++
    "XDouwzu1_VHlGAh2X36SmPTYwVz7mvllMD9g1f4k1u6x9k4amK5VpjQzx-5hFH2hs-LajUyjlMvsRWd75mGADA"

def realmRun (url : Text) : List Action :=
  [.call (.verify realmToken), .land ⟨url, 0⟩ (keySource url), .resume 0, .pass 5000]

theorem honest_realmRun (url : Text) : Honest keySource (realmRun url) := by
  intro t result h
  have hland : Action.land t result = .land ⟨url, 0⟩ (keySource url) := by simpa [realmRun] using h
  cases hland
  rfl

theorem transparent_realm :
    (realmRules "https://idp.example/realms/" []).trust =
        .ofSettings (realmSettings "https://idp.example/realms/" []) ∧
      Honest keySource (realmRun "https://idp.example/realms/a") ∧
      ask (realmRules "https://idp.example/realms/" []) keySource
          (after (realmRules "https://idp.example/realms/" []) { epoch := 1700000000 }
            (realmRun "https://idp.example/realms/a")) (.verify realmToken) =
        ask (realmRules "https://idp.example/realms/" []) keySource
          (after (realmRules "https://idp.example/realms/" []) { epoch := 1700000000 }
            (realmRun "https://idp.example/realms/a")).renewed (.verify realmToken) := by
  have hsolid : (realmSettings "https://idp.example/realms/" []).IsSolid := by decide
  have hunambiguous := TrustPolicy.unambiguous_of_isSolid hsolid
  have hiff := (transparent (realmRules "https://idp.example/realms/" [])
    (realmSettings "https://idp.example/realms/" []) rfl).2
  exact ⟨rfl, honest_realmRun _, hiff.mp hunambiguous _ _ _ _ (honest_realmRun _)⟩

def shadowedRules : GateRules :=
  realmRules "https://idp.example/realms /" [⟨"https://idp.example/realms /a", some "listed", false, []⟩]

def shadowedPrincipal (tenant : Text) : Principal :=
  ⟨"u", "https://idp.example/realms /a", some tenant, false, [], [], [], []⟩

theorem ask_shadowed_used :
    ask shadowedRules keySource
        (after shadowedRules { epoch := 1700000000 } (realmRun "https://idp.example/realms /a"))
        (.verify listedToken) =
      some (.verdict (.ok (shadowedPrincipal "realm"))) := by
  decide +kernel

theorem ask_shadowed_new :
    ask shadowedRules keySource { epoch := 1700000005 } (.verify listedToken) =
      some (.verdict (.ok (shadowedPrincipal "listed"))) := by
  decide +kernel

/-- An unsigned token of the realm binds the engine of the listed issuer to the tenant of the realm. -/
theorem not_transparent_realm :
    Honest keySource (realmRun "https://idp.example/realms /a") ∧
      ask shadowedRules keySource
          (after shadowedRules { epoch := 1700000000 } (realmRun "https://idp.example/realms /a"))
          (.verify listedToken) ≠
        ask shadowedRules keySource
          (after shadowedRules { epoch := 1700000000 } (realmRun "https://idp.example/realms /a")).renewed
          (.verify listedToken) := by
  have hunix : (after shadowedRules { epoch := 1700000000 }
      (realmRun "https://idp.example/realms /a")).unix = 1700000005 := by decide +kernel
  refine ⟨honest_realmRun _, ?_⟩
  rw [ask_shadowed_used, renewed, hunix, ask_shadowed_new]
  simp [shadowedPrincipal]

end Run

end BearerGate
