import BearerGate.Config.Load
import BearerGate.Proofs.Token.Validated

namespace BearerGate

namespace Raw

variable {members : List (Text × Raw)} {name : Text}

theorem lookup_of_only? {o : Option Raw} (h : only? name members = some o) : members.reverse.lookup name = o := by
  induction members generalizing o with
  | nil => exact Option.some.inj h
  | cons m r ih =>
      obtain ⟨k, v⟩ := m
      rw [List.reverse_cons, List.lookup_append]
      rw [only?] at h
      by_cases hk : k = name
      · subst hk
        rw [if_pos rfl] at h
        split at h
        · cases h
        · rename_i hr
          obtain rfl := Option.some.inj h
          have hnone : r.reverse.lookup k = none := by
            rw [← List.any_reverse, Assoc.any_eq_isSome_lookup] at hr
            exact Option.not_isSome_iff_eq_none.mp hr
          rw [hnone]
          simp
      · rw [if_neg hk] at h
        rw [ih h, Assoc.lookup_cons_ne (Ne.symm hk)]
        simp

theorem raw?_of_mapM {names : List Text} {values : List (Option Raw)}
    (h : (names.mapM fun n => only? n members) = some values) {i : Nat} (hi : names[i]? = some name) :
    Fields.raw? ⟨values, false⟩ i = members.reverse.lookup name := by
  induction names generalizing values i with
  | nil => cases hi
  | cons n names ih =>
      rw [List.mapM_cons] at h
      simp only [Option.bind_eq_bind, Option.bind_eq_some_iff, Option.pure_def, Option.some.injEq] at h
      obtain ⟨o, ho, rest, hrest, rfl⟩ := h
      cases i with
      | zero =>
          obtain rfl := Option.some.inj hi
          exact (lookup_of_only? ho).symm
      | succ i => exact ih hrest hi

theorem optional?_int64?_string {f : Fields} {i : Nat} {quoted : Bytes} (h : f.raw? i = some (.string quoted)) :
    f.optional? i int64? = none := by
  simp only [Fields.optional?, Fields.withDefault?, h]
  rfl

end Raw

namespace Claims

variable {members : List (Text × Raw)} {extra : List (Text × Json)} {name : Text}

/-- The text that the payload holds under the name. Of several members of one name the last counts. -/
def text? (name : Text) (payload : Bytes) : Option Text :=
  match Raw.parse? payload with
  | some (.object members) =>
    match (Raw.names? members).bind fun members => members.reverse.lookup name with
    | some (.string quoted) => Raw.unquote? quoted
    | _ => none
  | _ => none

theorem lookup_extra (h : buildExtra? members = some extra) (hname : name ∉ fieldNames) :
    (extra.lookup name).map some = (members.reverse.lookup name).map (Raw.build? (Raw.maxDepth - 1)) := by
  induction members generalizing extra with
  | nil =>
      obtain rfl := Option.some.inj h
      rfl
  | cons m r ih =>
      obtain ⟨k, v⟩ := m
      rw [List.reverse_cons, List.lookup_append]
      rw [buildExtra?] at h
      split at h
      · rename_i hk
        have hne : name ≠ k := fun he => hname (he ▸ hk)
        rw [ih h, Assoc.lookup_cons_ne hne]
        simp
      · split at h
        · rename_i j rest hj hrest
          have ih := ih hrest
          obtain rfl := Option.some.inj h
          by_cases hne : name = k
          · subst hne
            rw [Assoc.any_eq_isSome_lookup]
            cases hl : rest.lookup name with
            | some x =>
                rw [hl] at ih
                obtain ⟨raw, hraw, hx⟩ := Option.map_eq_some_iff.mp ih.symm
                simp only [Option.isSome_some, if_true, hl, hraw, Option.some_or, Option.map_some, hx]
            | none =>
                rw [hl] at ih
                have hnone := Option.map_eq_none_iff.mp ih.symm
                simp [hnone, hj]
          · have hkeep : (if rest.any (·.1 = k) then rest else (k, j) :: rest).lookup name = rest.lookup name := by
              split
              · rfl
              · exact Assoc.lookup_cons_ne hne j rest
            rw [hkeep, ih, Assoc.lookup_cons_ne hne]
            simp
        · cases h

theorem text?_eq_some {payload : Bytes} {object : List (Bytes × Raw)} {id : Text}
    (hobject : Raw.parse? payload = some (.object object)) (hmembers : Raw.names? object = some members)
    (h : text? name payload = some id) :
    ∃ quoted, members.reverse.lookup name = some (.string quoted) ∧ Raw.unquote? quoted = some id := by
  simp only [text?, hobject, hmembers, Option.bind_some] at h
  split at h
  · rename_i quoted hquoted
    exact ⟨quoted, hquoted, h⟩
  · cases h

theorem text?_ne_of_time {payload : Bytes} {c : Claims} (h : parse? payload = some c)
    (hname : name ∈ (["exp", "nbf", "iat"] : List Text)) (id : Text) : text? name payload ≠ some id := by
  intro hid
  obtain ⟨object, members, values, hobject, hmembers, hvalues, -, hexp, hnbf, hiat, -⟩ := parse?_eq_some h
  obtain ⟨quoted, hquoted, -⟩ := text?_eq_some hobject hmembers hid
  have hraw {i : Nat} (hi : fieldNames[i]? = some name) :
      Raw.Fields.raw? ⟨values, false⟩ i = some (.string quoted) :=
    (Raw.raw?_of_mapM hvalues hi).trans hquoted
  simp only [List.mem_cons, List.not_mem_nil, or_false] at hname
  rcases hname with rfl | rfl | rfl
  · rw [Raw.optional?_int64?_string (hraw rfl)] at hexp
    cases hexp
  · rw [Raw.optional?_int64?_string (hraw rfl)] at hnbf
    cases hnbf
  · rw [Raw.optional?_int64?_string (hraw rfl)] at hiat
    cases hiat

theorem lookup_extra_of_text? {payload : Bytes} {c : Claims} {id : Text} (h : parse? payload = some c)
    (hname : name ∉ fieldNames) (hid : text? name payload = some id) :
    c.extra.lookup name = some (.string id) := by
  obtain ⟨object, members, values, hobject, hmembers, -, -, -, -, -, hextra⟩ := parse?_eq_some h
  obtain ⟨quoted, hquoted, hunquote⟩ := text?_eq_some hobject hmembers hid
  have hlookup := lookup_extra hextra hname
  have hbuild : Raw.build? (Raw.maxDepth - 1) (.string quoted) = some (.string id) := by
    rw [Raw.build?, hunquote]
    rfl
  rw [hquoted, Option.map_some, hbuild] at hlookup
  obtain ⟨v, hv, he⟩ := Option.map_eq_some_iff.mp hlookup
  rw [hv]
  exact he

end Claims

/-- A token whose payload names a tenant that the issuer does not accept is not accepted, whatever else is
true of it. -/
def ValidationPolicy.EnforcesTenant (p : ValidationPolicy) : Prop :=
  ∀ (payload : Bytes) (c : Claims) (id : Text), Claims.parse? payload = some c →
    Claims.text? p.tenantClaim payload = some id → ∀ i : TrustedIssuer, i.acceptsTenant id = false →
      ∀ recordIssuer service now v, Validation.check i p recordIssuer service c now ≠ .ok v

namespace Validation

variable {i : TrustedIssuer} {p : ValidationPolicy} {c : Claims} {id : Text}

theorem tenant_of_text (h : c.extra.lookup p.tenantClaim = some (.string id)) (hi : i.acceptsTenant id = false) :
    tenant i p c = .error .tenantMismatch := by
  simp only [tenant, h, hi, Bool.false_eq_true, if_false]

end Validation

namespace Fielded

def payload : Bytes := Utf8.encode
  ("\x7b\"iss\":\"https://idp.example/abc\",\"sub\":\"u\",\"aud\":\"urn:ads:p:s\",\"exp\":1," ++
    "\"scope\":\"x\"\x7d")

def claims : Claims where
  iss := some "https://idp.example/abc"
  sub := some "u"
  aud := ["urn:ads:p:s"]
  exp := some 1
  nbf := none
  iat := none
  scope := some "x"
  extra := []

theorem parse?_payload : Claims.parse? payload = some claims := by
  decide +kernel

theorem check_claims (e : TrustedIssuer) (p : ValidationPolicy) :
    Validation.check e p "https://idp.example/abc" ⟨"p", "s"⟩ claims 0 = .ok ⟨claims, "u", e.boundTenant?⟩ :=
  Validation.check_untenanted rfl rfl (by decide) (by decide) rfl (List.mem_singleton_self _) rfl rfl

theorem exists_text? {name : Text} (h : name ∈ (["iss", "sub", "aud", "scope"] : List Text)) :
    ∃ id, Claims.text? name payload = some id := by
  simp only [List.mem_cons, List.not_mem_nil, or_false] at h
  rcases h with rfl | rfl | rfl | rfl
  · exact ⟨"https://idp.example/abc", by decide +kernel⟩
  · exact ⟨"u", by decide +kernel⟩
  · exact ⟨"urn:ads:p:s", by decide +kernel⟩
  · exact ⟨"x", by decide +kernel⟩

end Fielded

/-- The tenant is enforced exactly when its name is none of the names of claims that are texts: these never
reach the claims among which the tenant is looked up. -/
theorem ValidationPolicy.enforcesTenant_iff (p : ValidationPolicy) :
    p.EnforcesTenant ↔ p.tenantClaim ∉ (["iss", "sub", "aud", "scope"] : List Text) := by
  constructor
  · intro h hname
    obtain ⟨id, hid⟩ := Fielded.exists_text? hname
    -- A core issuer that serves no tenant accepts none.
    exact h _ _ id Fielded.parse?_payload hid ⟨"https://idp.example/abc", .core []⟩ rfl _ _ _ _
      (Fielded.check_claims _ p)
  · intro hname payload c id hparse hid i hi recordIssuer service now v hv
    by_cases hfield : p.tenantClaim ∈ Claims.fieldNames
    · have htime : p.tenantClaim ∈ (["exp", "nbf", "iat"] : List Text) := by
        simp only [Claims.fieldNames, List.mem_cons, List.not_mem_nil, or_false] at hfield hname ⊢
        tauto
      exact Claims.text?_ne_of_time hparse htime id hid
    · have htenant := (Validation.check_passed hv).tenant
      rw [Validation.tenant_of_text (Claims.lookup_extra_of_text? hparse hfield hid) hi] at htenant
      cases htenant

def subjectSettings : Settings where
  service := ⟨"p", "s"⟩
  trust := { issuers := [⟨"https://idp.example/abc", some "t", false, []⟩], tenantClaim := "sub" }

/-- A configuration in which the subject of a token is its tenant is accepted, and then any subject is. -/
theorem ValidationPolicy.not_enforcesTenant_subject :
    subjectSettings.check = .ok () ∧ ¬(ofSettings subjectSettings.trust).EnforcesTenant := by
  constructor
  · decide +kernel
  · intro h
    have hid : Claims.text? "sub" Fielded.payload = some "u" := by decide +kernel
    exact h _ _ "u" Fielded.parse?_payload hid ⟨"https://idp.example/abc", .tenant "t"⟩ rfl _ _ _ _
      (Fielded.check_claims _ _)

end BearerGate
