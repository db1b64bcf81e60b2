import BearerGate.Principal

namespace BearerGate

def Json.ListsRole (access : Json) (role : Text) : Prop :=
  ∃ members roles, access = .object members ∧ members.lookup "roles".toList = some (.array roles) ∧
    .string role ∈ roles

namespace Claims

def realmAccess : Text := "realm_access"

def resourceAccess : Text := "resource_access"

def Grants (c : Claims) (service : Identity) (role : Text) : Prop :=
  (∃ access, c.extra.lookup realmAccess = some access ∧ access.ListsRole role) ∨
    ∃ clients access, c.extra.lookup resourceAccess = some (.object clients) ∧
      clients.lookup service.urn = some access ∧ access.ListsRole role

end Claims

open Claims

/-- Claims that differ at most in what they say of other clients than the service. -/
structure Validated.SameFor (service : Identity) (v v' : Validated) : Prop where
  subject : v.subject = v'.subject
  tenant : v.tenant = v'.tenant
  fields : { v.claims with extra := [] } = { v'.claims with extra := [] }
  others : ∀ n ≠ resourceAccess, v.claims.extra.lookup n = v'.claims.extra.lookup n
  clients : ∃ clients clients', v.claims.extra.lookup resourceAccess = some (.object clients) ∧
    v'.claims.extra.lookup resourceAccess = some (.object clients') ∧
      clients.lookup service.urn = clients'.lookup service.urn

namespace Principal

variable {role : Text}

/-- Principals that are the same but for the order in which their claims are kept. -/
def Same (p p' : Principal) : Prop :=
  { p with claims := [] } = { p' with claims := [] } ∧ ∀ n, p.claims.lookup n = p'.claims.lookup n

theorem Same.eq {p p' : Principal} (h : p.Same p') (hclaims : p.claims = p'.claims) : p = p' := by
  obtain ⟨hfields, -⟩ := h
  cases p
  cases p'
  simp_all

theorem mem_roles {access : Json} : role ∈ roles access ↔ access.ListsRole role := by
  have hrole (items : List Json) : role ∈ items.filterMap Json.asText? ↔ .string role ∈ items := by
    rw [List.mem_filterMap]
    constructor
    · rintro ⟨j, hj, ht⟩
      cases j with
      | string t => exact Option.some.inj ht ▸ hj
      | null | bool | int | real | array | object => cases ht
    · exact fun h => ⟨_, h, rfl⟩
  cases access with
  | object members =>
      have hlists : (Json.object members).ListsRole role ↔
          ∃ items, members.lookup "roles".toList = some (.array items) ∧ .string role ∈ items := by
        constructor
        · rintro ⟨_, items, he, h⟩
          obtain rfl := Json.object.inj he
          exact ⟨items, h⟩
        · rintro ⟨items, h⟩
          exact ⟨members, items, rfl, h⟩
      rw [hlists, roles, Json.member?]
      generalize members.lookup "roles".toList = listed
      cases listed with
      | none => simp
      | some j => cases j <;> simp [Json.items, hrole]
  | null | bool | int | real | string | array => simp [roles, Json.member?, Json.ListsRole]

theorem make_eq (v : Validated) (i : TrustedIssuer) (service : Identity) :
    make v i service =
      { subject := v.subject, issuer := i.url, tenant := v.tenant, isCore := i.isCore
        scopes := (v.claims.scope.map Text.words).getD []
        realmRoles := ((v.claims.extra.lookup realmAccess).map roles).getD []
        serviceRoles := (((v.claims.extra.lookup resourceAccess).bind (·.member? service.urn)).map roles).getD []
        claims := (make v i service).claims } := rfl

theorem mem_realmRoles (v : Validated) (i : TrustedIssuer) (service : Identity) :
    role ∈ (make v i service).realmRoles ↔
      ∃ access, v.claims.extra.lookup realmAccess = some access ∧ access.ListsRole role := by
  rw [make_eq]
  cases v.claims.extra.lookup realmAccess with
  | none => simp
  | some access => simp [mem_roles]

theorem mem_serviceRoles (v : Validated) (i : TrustedIssuer) (service : Identity) :
    role ∈ (make v i service).serviceRoles ↔
      ∃ clients access, v.claims.extra.lookup resourceAccess = some (.object clients) ∧
        clients.lookup service.urn = some access ∧ access.ListsRole role := by
  rw [make_eq]
  cases v.claims.extra.lookup resourceAccess with
  | none => simp
  | some j =>
      cases j with
      | object clients =>
          rw [Option.bind_some, Json.member?]
          cases hc : clients.lookup service.urn <;> simp [mem_roles, hc]
      | null | bool | int | real | string | array => simp [Json.member?]

theorem hasRole_make (v : Validated) (i : TrustedIssuer) (service : Identity) :
    (make v i service).hasRole role = true ↔ v.claims.Grants service role := by
  rw [hasRole, Claims.Grants, ← mem_realmRoles v i service, ← mem_serviceRoles v i service, Or.comm]
  simp

theorem claims_make (v : Validated) (i : TrustedIssuer) (service : Identity) :
    (make v i service).claims = Assoc.erase realmAccess (Assoc.erase resourceAccess v.claims.extra) := by
  rw [make, Assoc.erase, Assoc.erase, Assoc.erase, Assoc.erase, List.filter_filter, List.filter_filter]
  simp only [Bool.and_comm]
  rfl

theorem lookup_claims_make (v : Validated) (i : TrustedIssuer) (service : Identity) (n : Text) :
    (make v i service).claims.lookup n =
      if n = realmAccess ∨ n = resourceAccess then none else v.claims.extra.lookup n := by
  rw [claims_make, Assoc.lookup_erase, Assoc.lookup_erase]
  by_cases h : n = realmAccess
  · simp [h]
  · by_cases h' : n = resourceAccess <;> simp [h, h']

theorem make_same {v v' : Validated} {service : Identity} (h : v.SameFor service v') (i : TrustedIssuer) :
    (make v i service).Same (make v' i service) := by
  obtain ⟨clients, clients', hv, hv', hclients⟩ := h.clients
  have hscope := congrArg Claims.scope h.fields
  dsimp only at hscope
  have hrealm : v.claims.extra.lookup realmAccess = v'.claims.extra.lookup realmAccess := h.others _ (by decide)
  constructor
  · rw [make_eq v, make_eq v', h.subject, h.tenant, hscope, hrealm, hv, hv']
    simp only [Option.bind_some, Json.member?, hclients]
  · intro n
    rw [lookup_claims_make, lookup_claims_make]
    split
    · rfl
    · rename_i hn
      exact h.others n (not_or.mp hn).2

/-- A principal has exactly the roles that its claims give it in the realm and for the service, is the same
whatever the claims say of other clients, and keeps all claims but those two. -/
theorem roles_confined (v : Validated) (i : TrustedIssuer) (service : Identity) :
    (∀ role, (make v i service).hasRole role = true ↔ v.claims.Grants service role) ∧
      (∀ v', v.SameFor service v' → (make v i service).Same (make v' i service) ∧
        (Assoc.erase resourceAccess v.claims.extra = Assoc.erase resourceAccess v'.claims.extra →
          make v i service = make v' i service)) ∧
      ∀ n, (make v i service).claims.lookup n =
        if n = realmAccess ∨ n = resourceAccess then none else v.claims.extra.lookup n := by
  refine ⟨fun role => hasRole_make v i service, fun v' h => ⟨make_same h i, fun herase => ?_⟩,
    lookup_claims_make v i service⟩
  apply (make_same h i).eq
  rw [claims_make, claims_make, herase]

def accountValidated (role : Text) : Validated where
  claims :=
    { iss := none, sub := some "u", aud := [], exp := none, nbf := none, iat := none, scope := none
      extra := [(resourceAccess, .object
        [("urn:ads:p:s", .object [("roles", .array [.string "reader"])]),
          ("account", .object [("roles", .array [.string role])])])] }
  subject := "u"
  tenant := none

theorem roles_confined_account :
    Validated.SameFor ⟨"p", "s"⟩ (accountValidated "user") (accountValidated "admin") ∧
      make (accountValidated "user") ⟨"https://idp.example/abc", .tenant "t"⟩ ⟨"p", "s"⟩ =
        make (accountValidated "admin") ⟨"https://idp.example/abc", .tenant "t"⟩ ⟨"p", "s"⟩ ∧
      (make (accountValidated "admin") ⟨"https://idp.example/abc", .tenant "t"⟩ ⟨"p", "s"⟩).hasRole "reader" = true ∧
      (make (accountValidated "admin") ⟨"https://idp.example/abc", .tenant "t"⟩ ⟨"p", "s"⟩).hasRole "admin" = false := by
  have h : Validated.SameFor ⟨"p", "s"⟩ (accountValidated "user") (accountValidated "admin") := by
    refine ⟨rfl, rfl, rfl, fun n hn => ?_, _, _, rfl, rfl, by decide⟩
    rw [accountValidated, accountValidated, Assoc.lookup_cons_ne hn, Assoc.lookup_cons_ne hn]
  have hroles := roles_confined (accountValidated "user") ⟨"https://idp.example/abc", .tenant "t"⟩ ⟨"p", "s"⟩
  exact ⟨h, (hroles.2.1 _ h).2 (by decide), by decide, by decide⟩

end Principal

end BearerGate
