import BearerGate.Proofs.Gate.Neutral
import BearerGate.Proofs.Run.Ask
import BearerGate.Proofs.Trust.Canonical

namespace BearerGate.Run

variable {rules : GateRules}

theorem engine_of_engines (claimed : Text) {g : Gate} {i j : TrustedIssuer} (hg : g.engines = [(i.url, i)])
    (hj : rules.trust.resolve? claimed = some j) (hurl : i.url = j.url) :
    (g.engine rules claimed).2 = some i := by
  simp only [Gate.engine, hj, hg, ← hurl, List.lookup_cons_self]

theorem engines_verify (rules : GateRules) (s : Run) (raw : Text) :
    (s.step rules (.call (.verify raw))).gate.engines = (s.gate.verify rules s.now s.unix raw).1.engines :=
  Gate.ofProgress_engines _ _

def shadowRun (rules : GateRules) (u url : Text) : List Action :=
  [.call (.verify (Neutral.token u rules.service.urn)), .land ⟨url, 0⟩ (Neutral.source url), .resume 0]

theorem honest_shadowRun (rules : GateRules) (u url : Text) :
    Honest Neutral.source (shadowRun rules u url) := by
  intro t result h
  have hland : Action.land t result = .land ⟨url, 0⟩ (Neutral.source url) := by
    simpa only [shadowRun, List.mem_cons, List.not_mem_nil, reduceCtorEq, false_or, or_false] using h
  cases hland
  rfl

theorem unix_shadowRun (rules : GateRules) (u url : Text) :
    (after rules { epoch := 0 } (shadowRun rules u url)).unix = 0 := by
  rw [shadowRun, after, List.foldl_cons, List.foldl_cons, List.foldl_cons, List.foldl_nil,
    unix_step (a := .resume 0) (by simp), unix_step (a := .land _ _) (by simp),
    unix_step (a := .call _) (by simp), unix_of_epoch 0 {}]

/-- A realm may have the canonical URL of a listed issuer. Then the engine of the URL serves the tenants of
whichever was seen first. -/
theorem engines_shadowRun {u : Text} {i : TrustedIssuer} (hu : rules.trust.resolve? u = some i)
    (hne : Text.trim u ≠ []) (url : Text) :
    (after rules { epoch := 0 } (shadowRun rules u url)).gate.engines = [(i.url, i)] := by
  have hparse := Neutral.parse_token hne rules.service.urn
  have htrim : rules.trust.resolve? (Text.trim u) = some i := by
    rw [rules.trust.resolve?_congr (IssuerUrl.normalForm_trim u), hu]
  have hissuer : (Neutral.unverified u rules.service.urn).issuer = Text.trim u := rfl
  rw [shadowRun, after, List.foldl_cons, List.foldl_cons, List.foldl_cons, List.foldl_nil,
    engines_step (a := .resume 0) rfl, engines_step (a := .land _ _) rfl, engines_verify,
    Gate.verify_engines_of_parse hparse, hissuer]
  simp only [Gate.engine, htrim, List.lookup_nil, List.nil_append]

theorem ask_shadowed {u : Text} {i j : TrustedIssuer} (h : rules.trust.Shadows u i j) :
    ask rules Neutral.source (after rules { epoch := 0 } (shadowRun rules u i.url))
        (.verify (Neutral.token i.url rules.service.urn)) =
        some (.verdict (.ok (Neutral.principal i rules.service i.url))) ∧
      ask rules Neutral.source { epoch := 0 } (.verify (Neutral.token i.url rules.service.urn)) =
        some (.verdict (.ok (Neutral.principal j rules.service i.url))) := by
  have htrim : rules.trust.resolve? (Text.trim i.url) = some j := by
    rw [rules.trust.resolve?_congr (IssuerUrl.normalForm_trim i.url), h.listed]
  constructor
  · have hengine := engine_of_engines _ (engines_shadowRun h.realm h.trim_ne_nil i.url) htrim h.url
    rw [ask_after rules 0 (honest_shadowRun rules u i.url), unix_shadowRun,
      Neutral.uncached_token h.trim_url_ne_nil hengine h.listed h.url.symm]
  · have hengine : (({} : Gate).engine rules (Text.trim i.url)).2 = some j := by
      simp only [Gate.engine, htrim, List.lookup_nil]
    have hlisted : rules.trust.resolve? j.url = some j := by
      rw [← h.url, h.listed]
    rw [ask_verify rules Neutral.source .empty .empty, unix_of_epoch,
      Neutral.uncached_token h.trim_url_ne_nil hengine hlisted h.url.symm]

end BearerGate.Run
