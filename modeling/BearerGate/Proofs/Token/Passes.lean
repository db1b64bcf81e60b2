import BearerGate.Proofs.Run.Acceptance
import BearerGate.Proofs.Token.Neutral

namespace BearerGate

theorem Raw.Fields.optional?_head {α : Type} (o : Option Raw) (values : List (Option Raw)) (positional : Bool)
    (value? : Raw → Option α) :
    optional? ⟨o :: values, positional⟩ 0 value? = optional? ⟨[o], false⟩ 0 value? := rfl

namespace Unverified

theorem claimedIssuer?_of_parse? {payload : Bytes} {c : Claims} (h : Claims.parse? payload = some c) :
    (Raw.parse? payload).bind claimedIssuer? = some c.iss := by
  obtain ⟨object, members, values, hobject, hmembers, hvalues, hiss, -⟩ := Claims.parse?_eq_some h
  rw [Claims.fieldNames, List.mapM_cons] at hvalues
  simp only [Option.bind_eq_bind, Option.bind_eq_some_iff, Option.pure_def, Option.some.injEq] at hvalues
  obtain ⟨o, ho, rest, -, rfl⟩ := hvalues
  have hfields : (Raw.object object).fields? ["iss"] = some ⟨[o], false⟩ := by
    simp only [Raw.fields?, hmembers, List.mapM_cons, List.mapM_nil, ho, Option.bind_eq_bind, Option.bind_some,
      Option.pure_def]
  rw [hobject, Option.bind_some, claimedIssuer?, hfields, ← hiss]
  exact (Raw.Fields.optional?_head o rest false Raw.text?).symm

/-- All that the first reading asks of a text. -/
theorem parse_eq_ok_iff {text : Text} {t : Unverified} : parse text = .ok t ↔
    ∃ head body signature header payload iss, segments? (Text.trim text) = some (head, body, signature) ∧
      decodeHeader? head = some header ∧
        Base64Url.decode? (Text.dropEndWhile (· = '=') body) = some payload ∧
          (Raw.parse? payload).bind claimedIssuer? = some (some iss) ∧ Text.trim iss ≠ [] ∧
            t = ⟨Text.trim text, header, Text.trim iss⟩ := by
  constructor
  · intro h
    rw [parse] at h
    split at h
    · rename_i head body signature hsegments
      split at h
      · rename_i header hheader
        split at h
        · rename_i payload hpayload
          split at h
          · rename_i claimed hclaimed
            split at h
            · rename_i c r hiss
              obtain ⟨iss, rfl, htrim⟩ := Option.map_eq_some_iff.mp hiss
              obtain rfl := Except.ok.inj h
              exact ⟨head, body, signature, header, payload, iss, hsegments, hheader, hpayload, hclaimed,
                htrim ▸ List.cons_ne_nil c r, by rw [htrim]⟩
            · cases h
          · cases h
        · cases h
      · cases h
    · cases h
  · rintro ⟨head, body, signature, header, payload, iss, hsegments, hheader, hpayload, hissuer, hne, rfl⟩
    obtain ⟨c, r, hcr⟩ := List.exists_cons_of_ne_nil hne
    simp only [parse, hsegments, hheader, hpayload, hissuer, Option.map_some, hcr]
    rfl

/-- The two readings of a token agree. Claims whose signature is checked name the issuer that was claimed
before, and a token whose claims could be read, with an issuer, is never refused by the first reading. -/
theorem readings_agree (text : Text) :
    (∀ t k c, parse text = .ok t → t.verify k = .ok c → ∃ iss, c.iss = some iss ∧ Text.trim iss = t.issuer) ∧
      ∀ head body signature header payload c iss, segments? (Text.trim text) = some (head, body, signature) →
        decodeHeader? head = some header → Base64Url.decode? body = some payload →
          Claims.parse? payload = some c → c.iss = some iss → Text.trim iss ≠ [] →
            parse text = .ok ⟨Text.trim text, header, Text.trim iss⟩ := by
  constructor
  · intro t k c hparse hverify
    obtain ⟨head, body, signature, header, payload, iss, hsegments, -, hpayload, hissuer, -, rfl⟩ :=
      parse_eq_ok_iff.mp hparse
    obtain ⟨head', body', signature', bytes, hsegments', -, -, hclaims⟩ := verify_ok hverify
    obtain ⟨rfl, rfl, rfl⟩ : head = head' ∧ body = body' ∧ signature = signature' := by
      simpa using hsegments.symm.trans hsegments'
    obtain ⟨payload', hpayload', hclaims⟩ := Option.bind_eq_some_iff.mp hclaims
    rw [Base64Url.dropEndWhile_of_decode? hpayload', hpayload'] at hpayload
    obtain rfl := Option.some.inj hpayload
    have hiss := (claimedIssuer?_of_parse? hclaims).symm.trans hissuer
    exact ⟨iss, Option.some.inj hiss, rfl⟩
  · intro head body signature header payload c iss hsegments hheader hpayload hclaims hiss hne
    have hissuer := claimedIssuer?_of_parse? hclaims
    rw [hiss] at hissuer
    have hstripped := Base64Url.dropEndWhile_of_decode? hpayload
    exact parse_eq_ok_iff.mpr ⟨head, body, signature, header, payload, iss, hsegments, hheader,
      by rw [hstripped, hpayload], hissuer, hne, rfl⟩

def blankIssuer : Text := " https://idp.example/abc\t"

theorem readings_agree_blank :
    (Neutral.unverified blankIssuer "urn:ads:p:s").verify Neutral.key =
        .ok (Neutral.claims blankIssuer "urn:ads:p:s") ∧
      (∃ iss, (Neutral.claims blankIssuer "urn:ads:p:s").iss = some iss ∧
        Text.trim iss = (Neutral.unverified blankIssuer "urn:ads:p:s").issuer) ∧
        parse (Neutral.token blankIssuer "urn:ads:p:s") =
          .ok ⟨Text.trim (Neutral.token blankIssuer "urn:ads:p:s"), ⟨.edDSA, none, none, none⟩,
            Text.trim blankIssuer⟩ := by
  have hne : Text.trim blankIssuer ≠ [] := by decide
  have hparse := Neutral.parse_token hne "urn:ads:p:s"
  have hverify := Neutral.verify_token blankIssuer "urn:ads:p:s"
  have hsegments := Neutral.segments?_token blankIssuer "urn:ads:p:s"
  rw [← (Neutral.token_isSolid blankIssuer "urn:ads:p:s").trim_eq] at hsegments
  have hheader : decodeHeader? Neutral.head = some ⟨.edDSA, none, none, none⟩ := by decide +kernel
  have hclaims : Claims.parse? (Utf8.encode (Neutral.payload blankIssuer "urn:ads:p:s")) =
      some (Neutral.claims blankIssuer "urn:ads:p:s") := by
    decide +kernel
  obtain ⟨hfirst, hsecond⟩ := readings_agree (Neutral.token blankIssuer "urn:ads:p:s")
  exact ⟨hverify, hfirst _ _ _ hparse hverify,
    hsecond _ _ _ _ _ _ _ hsegments hheader (Base64Url.decode?_encode _) hclaims rfl hne⟩

end Unverified

end BearerGate
