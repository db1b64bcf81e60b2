import BearerGate.Proofs.Trust.Canonical

namespace BearerGate.TrustPolicy

/-- The text is the canonical URL of an issuer that is accepted under some spelling. -/
def Accepts (p : TrustPolicy) (url : Text) : Prop :=
  ∃ claimed i, p.resolve? claimed = some i ∧ i.url = url

def size (p : TrustPolicy) : Nat := p.issuers.length + (p.realms.elim 0 fun r => r.tenants.length)

def urls (p : TrustPolicy) : List Text :=
  p.issuers.map (·.2.url) ++ p.realms.elim [] fun r => r.tenants.map fun t => r.base ++ '/' :: t.1

theorem length_urls (p : TrustPolicy) : p.urls.length = p.size := by
  rw [urls, size, List.length_append, List.length_map]
  cases p.realms <;> simp

theorem Accepts.mem_urls {p : TrustPolicy} {url : Text} (h : p.Accepts url) : url ∈ p.urls := by
  obtain ⟨claimed, i, hi, rfl⟩ := h
  rw [urls, List.mem_append]
  rcases resolve?_cases hi with hi | ⟨-, r, hr, hi⟩
  · exact .inl (List.mem_map.mpr ⟨_, Assoc.mem_of_lookup hi, rfl⟩)
  · obtain ⟨realm, tenant, -, -, -, htenant, rfl⟩ := RealmRule.resolve?_eq_some_iff.mp hi
    rw [hr]
    exact .inr (List.mem_map.mpr ⟨_, Assoc.mem_of_lookup htenant, rfl⟩)

theorem length_le_size {p : TrustPolicy} {l : List Text} (hn : l.Nodup) (h : ∀ url ∈ l, p.Accepts url) :
    l.length ≤ p.size := by
  rw [← length_urls]
  apply hn.length_le_of_subset
  intro url hurl
  exact (h url hurl).mem_urls

end BearerGate.TrustPolicy
