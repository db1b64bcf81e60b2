import BearerGate.Cache.Basic
import BearerGate.Key.Verify

namespace BearerGate

variable {k : SigningKey} {t : Unverified} {r : Record} {issuer : Text} {d : Document} {p : CachePolicy}
  {generation : Nat} {now : Millis}

theorem KeySet.find?_eq_some {keys : KeySet} {kid : Option Text} {a : Algorithm}
    (h : keys.find? kid a = some k) :
    k ∈ keys ∧ k.supports a = true ∧ ∀ id, kid = some id → k.kid = some id := by
  simp only [KeySet.find?] at h
  split at h
  · rename_i id
    obtain ⟨hfind, hs⟩ := Option.filter_eq_some_iff.mp h
    refine ⟨List.mem_of_find?_eq_some hfind, hs, fun id' he => ?_⟩
    obtain rfl := Option.some.inj he
    simpa using List.find?_some hfind
  · split at h
    · rename_i only he
      obtain rfl := Option.some.inj h
      have hm : only ∈ keys.filter (·.supports a) := he ▸ List.mem_singleton_self only
      obtain ⟨hmem, hs⟩ := List.mem_filter.mp hm
      exact ⟨hmem, hs, fun id he => nomatch he⟩
    · cases h

theorem Metadata.advertises {m : Metadata} {a : Algorithm} (h : m.allows a = true) :
    m.signingAlgorithms = [] ∨ ∃ n ∈ m.signingAlgorithms, Algorithm.named? n = some a := by
  simp only [Metadata.allows, Bool.or_eq_true, decide_eq_true_eq, List.any_eq_true] at h
  refine h.imp_right ?_
  rintro ⟨n, hn, ha⟩
  exact ⟨n, hn, (Option.filter_eq_some_iff.mp ha).1⟩

namespace Record

/-- The key of a record that is chosen for a token. -/
structure Selected (r : Record) (t : Unverified) (k : SigningKey) : Prop where
  asymmetric : t.header.alg.isSymmetric = false
  allowed : r.metadata.allows t.header.alg = true
  mem : k ∈ r.keys
  supports : k.supports t.header.alg = true
  kid : ∀ id, t.header.kid = some id → k.kid = some id

theorem selectKey_ok (h : r.selectKey t = .ok k) : Selected r t k := by
  unfold selectKey at h
  dsimp only at h
  split at h
  · cases h
  · rename_i hrefused
    split at h
    · rename_i k' hfind
      obtain rfl := Except.ok.inj h
      obtain ⟨hm, hs, hkid⟩ := KeySet.find?_eq_some hfind
      simp only [Bool.or_eq_true, Bool.not_eq_true', not_or, Bool.not_eq_true, Bool.not_eq_false] at hrefused
      exact ⟨hrefused.1, hrefused.2, hm, hs, hkid⟩
    · cases h

theorem build_eq_ok_iff : build issuer d p generation now = .ok r ↔
    d.metadata.issuer = issuer ∧ KeySet.ofJwks d.jwks ≠ [] ∧
      r = ⟨issuer, d.metadata, KeySet.ofJwks d.jwks, now, now + p.freshness d.maxAge,
        now + p.freshness d.maxAge + p.grace, generation⟩ := by
  rw [build]
  split
  · rename_i hissuer
    exact iff_of_false nofun fun h => hissuer h.1
  · rename_i hissuer
    rw [Decidable.not_not] at hissuer
    split
    · rename_i hnone
      exact iff_of_false nofun fun h => h.2.1 hnone
    · rename_i hkeys
      rw [Except.ok.injEq, eq_comm]
      exact ⟨fun h => ⟨hissuer, hkeys, h⟩, fun h => h.2.2⟩

/-- What a record has from the document it was built from. -/
structure BuiltFrom (url : Text) (d : Document) (r : Record) : Prop where
  issuer : r.issuer = url
  described : d.metadata.issuer = url
  metadata : r.metadata = d.metadata
  keys : r.keys = KeySet.ofJwks d.jwks

theorem build_ok (h : build issuer d p generation now = .ok r) : BuiltFrom issuer d r := by
  obtain ⟨hissuer, -, rfl⟩ := build_eq_ok_iff.mp h
  exact ⟨rfl, hissuer, rfl, rfl⟩

end Record

theorem Cache.outcome_ok {result : Except FetchFault Document}
    (h : outcome p now issuer generation result = .ok r) :
    ∃ d, result = .ok d ∧ Record.BuiltFrom issuer d r := by
  cases result with
  | ok d => exact ⟨d, rfl, Record.build_ok h⟩
  | error f => cases h

end BearerGate
