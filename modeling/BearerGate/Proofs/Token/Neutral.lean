import BearerGate.Gate.Verify
import BearerGate.Proofs.Crypto.Neutral
import BearerGate.Proofs.Json.Quoted
import BearerGate.Proofs.Text.Base64Url
import BearerGate.Proofs.Text.Parts

namespace BearerGate

theorem Unverified.segments?_dotted {a b c : Text} (ha : a ≠ []) (hb : b ≠ []) (hc : c ≠ [])
    (hdot : ∀ t ∈ [a, b, c], '.' ∉ t) : segments? (a ++ '.' :: (b ++ '.' :: c)) = some (a, b, c) := by
  have hjoin : a ++ '.' :: (b ++ '.' :: c) = ['.'].intercalate [a, b, c] := by
    simp [List.intercalate]
  have hsplit : (a ++ '.' :: (b ++ '.' :: c)).splitOn '.' = [a, b, c] := by
    rw [hjoin]
    apply List.splitOn_intercalate
    · exact hdot
    · simp
  rw [segments?, hsplit]
  simp only [ha, hb, hc, or_self, if_false]

namespace Neutral

open Crypto

/-- A key that accepts one signature with every message, so that tokens of any issuer for any audience are
good without a secret. -/
def key : SigningKey := ⟨none, none, .ed25519 Ed25519.neutralKey⟩

def claims (iss aud : Text) : Claims where
  iss := some iss
  sub := some "u"
  aud := [aud]
  exp := some 1
  nbf := none
  iat := none
  scope := none
  extra := []

def expiry : Text := "\"exp\":1\x7d"

def payload (iss aud : Text) : Text :=
  '\x7b' :: (Raw.member "iss" iss ++ (Raw.member "sub" "u" ++ (Raw.member "aud" aud ++ expiry)))

def raw (iss aud : Text) : Raw :=
  .object [(Raw.escaped "iss", .string (Raw.escaped iss)), (Raw.escaped "sub", .string (Raw.escaped "u")),
    (Raw.escaped "aud", .string (Raw.escaped aud)), (Raw.escaped "exp", .number [49])]

theorem encode_payload (iss aud : Text) : Utf8.encode (payload iss aud) =
    123 :: (Utf8.encode (Raw.member "iss" iss) ++ (Utf8.encode (Raw.member "sub" "u") ++
      (Utf8.encode (Raw.member "aud" aud) ++ Utf8.encode expiry))) := by
  have hbrace : Utf8.encodeChar '\x7b' = [123] := by decide
  rw [payload, Utf8.encode_cons, hbrace, Utf8.encode_append, Utf8.encode_append, Utf8.encode_append,
    List.singleton_append]

theorem members?_expiry (fuel : Nat) : Raw.members? (fuel + 2) (Utf8.encode expiry) =
    some ([(Raw.escaped "exp", .number [49])], []) := by
  have hbytes : Utf8.encode expiry = 34 :: (Raw.escaped "exp" ++ [34, 58, 49, 125]) := by decide
  have hquote (x : Bytes) : Raw.skipSpace (34 :: x) = 34 :: x := rfl
  have hcolon (x : Bytes) : Raw.skipSpace (58 :: x) = 58 :: x := rfl
  have hclose : Raw.skipSpace [125] = [125] := rfl
  have hnumber : Raw.value? (fuel + 1) [49, 125] = some (.number [49], [125]) := by
    rw [Raw.value?]
    rfl
  rw [hbytes, Raw.members?, hquote]
  simp only
  rw [Raw.quoted?_escaped]
  simp only [hcolon]
  rw [hnumber]
  simp only [hclose]

theorem parse?_payload (iss aud : Text) : Raw.parse? (Utf8.encode (payload iss aud)) = some (raw iss aud) := by
  obtain ⟨x, hx⟩ : ∃ x, Utf8.encode (Raw.member "iss" iss) ++ (Utf8.encode (Raw.member "sub" "u") ++
      (Utf8.encode (Raw.member "aud" aud) ++ Utf8.encode expiry)) = 34 :: x := by
    rw [Raw.encode_member, List.cons_append]
    exact ⟨_, rfl⟩
  -- One unit of fuel for the object and for each member, and one for the value of the last.
  obtain ⟨fuel, hfuel⟩ : ∃ fuel, 2 * (Utf8.encode (payload iss aud)).length + 2 = fuel + 6 := by
    rw [encode_payload, hx]
    exact ⟨2 * x.length, by simp only [List.length_cons]; omega⟩
  rw [Raw.parse?, hfuel, encode_payload, hx, Raw.value?_members, ← hx, Raw.members?_member,
    Raw.members?_member, Raw.members?_member, members?_expiry]
  rfl

def members (iss aud : Text) : List (Text × Raw) :=
  [("iss", .string (Raw.escaped iss)), ("sub", .string (Raw.escaped "u")),
    ("aud", .string (Raw.escaped aud)), ("exp", .number [49])]

theorem names?_raw (iss aud : Text) :
    Raw.names? [(Raw.escaped "iss", .string (Raw.escaped iss)), (Raw.escaped "sub", .string (Raw.escaped "u")),
      (Raw.escaped "aud", .string (Raw.escaped aud)), (Raw.escaped "exp", .number [49])] =
      some (members iss aud) := by
  simp only [Raw.names?, Raw.unquote?_escaped, members]

theorem ofRaw?_raw (iss aud : Text) : Claims.ofRaw? (raw iss aud) = some (claims iss aud) := by
  have hvalues : (Claims.fieldNames.mapM fun n => Raw.only? n (members iss aud)) =
      some [some (.string (Raw.escaped iss)), some (.string (Raw.escaped "u")),
        some (.string (Raw.escaped aud)), some (.number [49]), none, none, none] := rfl
  have hextra : Claims.buildExtra? (members iss aud) = some [] := rfl
  have hexp : Raw.int64? (.number [49]) = some 1 := by decide +kernel
  simp only [Claims.ofRaw?, raw, names?_raw, hvalues, hextra, Option.bind_eq_bind, Option.bind_some,
    Raw.Fields.optional?, Raw.Fields.withDefault?, Raw.Fields.raw?]
  simp [Raw.nullable?, Raw.text?, Claims.audience?, Raw.unquote?_escaped, hexp, claims]

theorem claimedIssuer?_raw (iss aud : Text) : Unverified.claimedIssuer? (raw iss aud) = some (some iss) := by
  have hvalues : (["iss".toList].mapM fun n => Raw.only? n (members iss aud)) =
      some [some (.string (Raw.escaped iss))] := rfl
  simp only [Unverified.claimedIssuer?, raw, Raw.fields?, names?_raw, hvalues, Option.bind_eq_bind,
    Option.bind_some, Raw.Fields.optional?, Raw.Fields.withDefault?, Raw.Fields.raw?]
  simp [Raw.nullable?, Raw.text?, Raw.unquote?_escaped]

def head : Text := "eyJhbGciOiJFZERTQSJ9"

def body (iss aud : Text) : Text := Base64Url.encode (Utf8.encode (payload iss aud))

def signature : Text := Base64Url.encode (Ed25519.neutralKey ++ List.replicate 32 0)

def token (iss aud : Text) : Text := head ++ '.' :: (body iss aud ++ '.' :: signature)

theorem token_isSolid (iss aud : Text) : (token iss aud).IsSolid := by
  have hhead : head.IsSolid := by decide
  have hdot {t : Text} (ht : t.IsSolid) : Text.IsSolid ('.' :: t) :=
    Text.IsSolid.append (s := ['.']) (by decide) ht
  exact hhead.append (hdot ((Base64Url.encode_isSolid _).append (hdot (Base64Url.encode_isSolid _))))

theorem segments?_token (iss aud : Text) :
    Unverified.segments? (token iss aud) = some (head, body iss aud, signature) := by
  have hbody : body iss aud ≠ [] := by
    rw [body, encode_payload]
    exact Base64Url.encode_ne_nil (List.cons_ne_nil _ _)
  have hdot (b : Bytes) : '.' ∉ Base64Url.encode b := Base64Url.not_mem_encode (by decide) b
  apply Unverified.segments?_dotted (by decide) hbody (by decide)
  intro t ht
  simp only [List.mem_cons, List.not_mem_nil, or_false] at ht
  rcases ht with rfl | rfl | rfl
  · decide
  · exact hdot _
  · exact hdot _

def unverified (iss aud : Text) : Unverified := ⟨token iss aud, ⟨.edDSA, none, none, none⟩, Text.trim iss⟩

theorem parse_token {iss : Text} (h : Text.trim iss ≠ []) (aud : Text) :
    Unverified.parse (token iss aud) = .ok (unverified iss aud) := by
  have hheader : Unverified.decodeHeader? head = some ⟨.edDSA, none, none, none⟩ := by decide +kernel
  obtain ⟨c, r, hcr⟩ := List.exists_cons_of_ne_nil h
  simp only [Unverified.parse, (token_isSolid iss aud).trim_eq, segments?_token, hheader, body,
    Base64Url.dropEndWhile_of_decode? (Base64Url.decode?_encode _), Base64Url.decode?_encode, parse?_payload,
    claimedIssuer?_raw, Option.bind_some, Option.map_some, hcr, unverified]
  rfl

/-- The signature is good whatever the claims are. -/
theorem verify_token (iss aud : Text) : (unverified iss aud).verify key = .ok (claims iss aud) := by
  have hverifies (m : Bytes) :
      key.material.verifies .edDSA m (Ed25519.neutralKey ++ List.replicate 32 0) = true :=
    Ed25519.verify_neutralKey m
  have hclaims : (Base64Url.decode? (body iss aud)).bind Claims.parse? = some (claims iss aud) := by
    rw [body, Base64Url.decode?_encode, Option.bind_some, Claims.parse?, parse?_payload, Option.bind_some,
      ofRaw?_raw]
  simp only [Unverified.verify, unverified, segments?_token, signature, Base64Url.decode?_encode, hverifies,
    if_true, hclaims]

end Neutral

end BearerGate
