import BearerGate.Proofs.Key.Suited
import Mathlib.Data.List.Perm.Basic

namespace BearerGate

namespace KeySet

variable {keys keys' : KeySet} {id : Text} {a : Algorithm} {k : SigningKey}

theorem find?_none_perm (h : keys.Perm keys') (a : Algorithm) : keys.find? none a = keys'.find? none a := by
  ext k
  rw [find?_none_eq_some_iff, find?_none_eq_some_iff]
  have hf := h.filter (·.supports a)
  constructor
  · intro hk
    exact List.perm_singleton.mp (hk ▸ hf.symm)
  · intro hk
    exact List.perm_singleton.mp (hk ▸ hf)

theorem find?_cons (keys : KeySet) (hid : k.kid = some id) (a : Algorithm) :
    find? (k :: keys) (some id) a = if k.supports a then some k else none := by
  have hfind : List.find? (fun k => decide (k.kid = some id)) (k :: keys) = some k :=
    List.find?_cons_of_pos (by simpa using hid)
  simp only [find?]
  rw [hfind, Option.filter_some]

theorem exists_find? (hk : k ∈ keys) (hid : k.kid = some id)
    (h : ∀ k' ∈ keys, k'.kid = some id → k'.supports a = true) : ∃ k', keys.find? (some id) a = some k' := by
  have hsome : (List.find? (fun k : SigningKey => decide (k.kid = some id)) keys).isSome = true :=
    List.find?_isSome.mpr ⟨k, hk, decide_eq_true hid⟩
  obtain ⟨k', hfind⟩ := Option.isSome_iff_exists.mp hsome
  have hid' : k'.kid = some id := by simpa using List.find?_some hfind
  refine ⟨k', ?_⟩
  simp only [find?]
  rw [hfind, Option.filter_some, if_pos (h k' (List.mem_of_find?_eq_some hfind) hid')]

theorem find?_eq_of_unique (hk : k ∈ keys) (hid : k.kid = some id) (hs : k.supports a = true)
    (h : ∀ k' ∈ keys, k'.kid = some id → k' = k) : keys.find? (some id) a = some k := by
  obtain ⟨k', hfind⟩ := exists_find? hk hid fun k' hk' hid' => (h k' hk' hid').symm ▸ hs
  obtain ⟨hm, -, hid'⟩ := find?_eq_some hfind
  rw [hfind, h k' hm (hid' id rfl)]

theorem exists_perm_ofJwks {jwks : Jwks} (hk : k ∈ ofJwks jwks) :
    ∃ keys : Jwks, keys.Perm jwks ∧ ∃ rest, ofJwks keys = k :: rest := by
  obtain ⟨j, hj, hk⟩ := List.mem_filterMap.mp hk
  exact ⟨j :: jwks.erase j, (List.perm_cons_erase hj).symm, _, List.filterMap_cons_some hk⟩

end KeySet

namespace Document

variable {d : Document} {r : Record} {t : Unverified}

def Builds (d : Document) (r : Record) : Prop :=
  ∃ issuer p generation now, Record.build issuer d p generation now = .ok r

theorem Builds.keys (h : d.Builds r) : r.keys = KeySet.ofJwks d.jwks := by
  obtain ⟨issuer, p, generation, now, h⟩ := h
  exact (Record.build_ok h).keys

theorem Builds.metadata (h : d.Builds r) : r.metadata = d.metadata := by
  obtain ⟨issuer, p, generation, now, h⟩ := h
  exact (Record.build_ok h).metadata

theorem exists_builds_iff : (∃ r, d.Builds r) ↔ KeySet.ofJwks d.jwks ≠ [] := by
  constructor
  · rintro ⟨r, issuer, p, generation, now, h⟩
    exact (Record.build_eq_ok_iff.mp h).2.1
  · intro h
    exact ⟨_, d.metadata.issuer, .brief, 0, 0, Record.build_eq_ok_iff.mpr ⟨rfl, h, rfl⟩⟩

theorem Builds.exists_perm {keys : Jwks} (h : d.Builds r) (hp : keys.Perm d.jwks) :
    ∃ r', { d with jwks := keys }.Builds r' := by
  refine exists_builds_iff.mpr fun hnil => exists_builds_iff.mp ⟨r, h⟩ ?_
  have hkeys := hp.filterMap Jwk.usable?
  rw [KeySet.ofJwks] at hnil
  rw [hnil] at hkeys
  exact hkeys.nil_eq.symm

def Refuses (d : Document) (t : Unverified) : Prop :=
  t.header.alg.isSymmetric = true ∨ d.metadata.allows t.header.alg = false

theorem Builds.selectKey_refused (h : d.Builds r) (ht : d.Refuses t) : r.selectKey t = .error .refused := by
  rw [Record.selectKey_refused, h.metadata, Bool.or_eq_true, Bool.not_eq_true']
  exact ht

theorem Builds.selectKey_eq (h : d.Builds r) (ht : ¬d.Refuses t) :
    r.selectKey t =
      match (KeySet.ofJwks d.jwks).find? t.header.kid t.header.alg with
      | some k => .ok k
      | none => .error .absent := by
  have hn : ¬(t.header.alg.isSymmetric || !d.metadata.allows t.header.alg) = true := by
    rwa [Bool.or_eq_true, Bool.not_eq_true']
  simp only [Record.selectKey, h.metadata, h.keys]
  exact if_neg hn

theorem Builds.selectKey_ok_iff (h : d.Builds r) (ht : ¬d.Refuses t) {k : SigningKey} :
    r.selectKey t = .ok k ↔ (KeySet.ofJwks d.jwks).find? t.header.kid t.header.alg = some k := by
  rw [h.selectKey_eq ht]
  cases (KeySet.ofJwks d.jwks).find? t.header.kid t.header.alg <;> simp

/-- Two choices from the document come to the same: the keys are made from one entry, or the same is missed. -/
def SameChoice (d : Document) : Except KeyMiss SigningKey → Except KeyMiss SigningKey → Prop
  | .ok k, .ok k' => ∃ j ∈ d.jwks, j.usable? = some k ∧ j.usable? = some k'
  | .error m, .error m' => m = m'
  | _, _ => False

theorem SameChoice.eq {x y : Except KeyMiss SigningKey} (h : d.SameChoice x y) : x = y := by
  cases x <;> cases y
  · exact congrArg _ h
  · exact h.elim
  · exact h.elim
  · obtain ⟨j, -, hj, hj'⟩ := h
    exact congrArg _ (Option.some.inj (hj.symm.trans hj'))

theorem Builds.sameChoice (h : d.Builds r) : d.SameChoice (r.selectKey t) (r.selectKey t) := by
  cases hk : r.selectKey t with
  | error m => exact rfl
  | ok k =>
      obtain ⟨j, hj, hk⟩ := List.mem_filterMap.mp (h.keys ▸ (Record.selectKey_ok hk).mem)
      exact ⟨j, hj, hk, hk⟩

/-- In whatever order the document lists its keys, the token gets the same. -/
def OrderFree (d : Document) (t : Unverified) : Prop :=
  ∀ keys : Jwks, keys.Perm d.jwks → ∀ r r', d.Builds r → { d with jwks := keys }.Builds r' →
    d.SameChoice (r.selectKey t) (r'.selectKey t)

/-- In whatever order the document lists its keys, the token gets one if any key of its id fits. -/
def FindsNamed (d : Document) (t : Unverified) : Prop :=
  ∀ keys : Jwks, keys.Perm d.jwks → ∀ r', { d with jwks := keys }.Builds r' → ¬d.Refuses t →
    ∀ id, t.header.kid = some id → ∀ k ∈ KeySet.ofJwks d.jwks, k.kid = some id →
      k.supports t.header.alg = true → ∃ k', r'.selectKey t = .ok k'

/-- Of the usable keys that have the id of the token, any one is related so to each one that fits. -/
def Rivals (d : Document) (t : Unverified) (q : SigningKey → SigningKey → Prop) : Prop :=
  ∀ id, t.header.kid = some id → ∀ k ∈ KeySet.ofJwks d.jwks, ∀ k' ∈ KeySet.ofJwks d.jwks,
    k.kid = some id → k'.kid = some id → k.supports t.header.alg = true → q k k'

theorem find?_perm {keys : Jwks} (hp : keys.Perm d.jwks) (h : d.Rivals t fun k k' => k' = k) :
    (KeySet.ofJwks keys).find? t.header.kid t.header.alg =
      (KeySet.ofJwks d.jwks).find? t.header.kid t.header.alg := by
  have hkeys : (KeySet.ofJwks keys).Perm (KeySet.ofJwks d.jwks) := hp.filterMap Jwk.usable?
  cases hid : t.header.kid with
  | none => exact KeySet.find?_none_perm hkeys _
  | some id =>
      by_cases hex : ∃ k ∈ KeySet.ofJwks d.jwks, k.kid = some id ∧ k.supports t.header.alg = true
      · obtain ⟨k, hk, hkid, hs⟩ := hex
        have honly (k') (hk' : k' ∈ KeySet.ofJwks d.jwks) (hkid' : k'.kid = some id) : k' = k :=
          h id hid k hk k' hk' hkid hkid' hs
        rw [KeySet.find?_eq_of_unique hk hkid hs honly,
          KeySet.find?_eq_of_unique (hkeys.mem_iff.mpr hk) hkid hs fun k' hk' =>
            honly k' (hkeys.mem_iff.mp hk')]
      · have hnone {l : KeySet} (hl : l ⊆ KeySet.ofJwks d.jwks) : l.find? (some id) t.header.alg = none := by
          cases hf : l.find? (some id) t.header.alg with
          | none => rfl
          | some k =>
              obtain ⟨hm, hs, hkid⟩ := KeySet.find?_eq_some hf
              exact absurd ⟨k, hl hm, hkid id rfl, hs⟩ hex
        rw [hnone hkeys.subset, hnone (List.Subset.refl _)]

theorem Builds.orderFree_iff (h : d.Builds r) :
    d.OrderFree t ↔ d.Refuses t ∨ d.Rivals t fun k k' => k' = k := by
  constructor
  · intro hfree
    refine or_iff_not_imp_left.mpr fun ht id hid k hk k' hk' hkid hkid' hs => ?_
    -- The records of the two documents that list the one key first, or the other one.
    obtain ⟨keys, hp, rest, hfirst⟩ := KeySet.exists_perm_ofJwks hk
    obtain ⟨keys', hp', rest', hfirst'⟩ := KeySet.exists_perm_ofJwks hk'
    obtain ⟨r₁, h₁⟩ := h.exists_perm hp
    obtain ⟨r₂, h₂⟩ := h.exists_perm hp'
    have heq : r₁.selectKey t = r₂.selectKey t :=
      (hfree keys hp r r₁ h h₁).eq.symm.trans (hfree keys' hp' r r₂ h h₂).eq
    have hfound : r₁.selectKey t = .ok k := by
      rw [h₁.selectKey_ok_iff ht, hfirst, hid, KeySet.find?_cons _ hkid, if_pos hs]
    rw [heq, h₂.selectKey_ok_iff ht, hfirst', hid, KeySet.find?_cons _ hkid'] at hfound
    split at hfound
    · exact Option.some.inj hfound
    · cases hfound
  · intro hor keys hp r₁ r₂ h₁ h₂
    rcases hor with ht | hq
    · rw [h₁.selectKey_refused ht, h₂.selectKey_refused ht]
      exact rfl
    · by_cases ht : d.Refuses t
      · rw [h₁.selectKey_refused ht, h₂.selectKey_refused ht]
        exact rfl
      · have heq : r₂.selectKey t = r₁.selectKey t := by
          rw [h₁.selectKey_eq ht, h₂.selectKey_eq ht, find?_perm hp hq]
        exact heq ▸ h₁.sameChoice

theorem Builds.findsNamed_iff (h : d.Builds r) :
    d.FindsNamed t ↔ d.Refuses t ∨ d.Rivals t fun _ k' => k'.supports t.header.alg = true := by
  constructor
  · intro hfinds
    refine or_iff_not_imp_left.mpr fun ht id hid k hk k' hk' hkid hkid' hs => ?_
    obtain ⟨keys, hp, rest, hfirst⟩ := KeySet.exists_perm_ofJwks hk'
    obtain ⟨r', h'⟩ := h.exists_perm hp
    obtain ⟨found, hfound⟩ := hfinds keys hp r' h' ht id hid k hk hkid hs
    rw [h'.selectKey_ok_iff ht, hfirst, hid, KeySet.find?_cons _ hkid'] at hfound
    by_contra hn
    rw [if_neg hn] at hfound
    cases hfound
  · intro hor keys hp r' h' ht id hid k hk hkid hs
    have hq := hor.resolve_left ht
    have hkeys : (KeySet.ofJwks keys).Perm (KeySet.ofJwks d.jwks) := hp.filterMap Jwk.usable?
    obtain ⟨found, hfound⟩ := KeySet.exists_find? (a := t.header.alg) (hkeys.mem_iff.mpr hk) hkid
      fun k' hk' hkid' => hq id hid k hk k' (hkeys.mem_iff.mp hk') hkid hkid' hs
    exact ⟨found, (h'.selectKey_ok_iff ht).mpr (hid ▸ hfound)⟩

/-- What a token gets is the same in every order of the keys if, and only if, no other key shares the id of the
token with one that fits. For a key to be found it is enough that all keys of the id fit. -/
theorem orderFree (h : d.Builds r) (t : Unverified) :
    (∀ keys : Jwks, keys.Perm d.jwks → ∃ r', { d with jwks := keys }.Builds r') ∧
      (d.OrderFree t ↔ d.Refuses t ∨ d.Rivals t fun k k' => k' = k) ∧
        (d.FindsNamed t ↔ d.Refuses t ∨ d.Rivals t fun _ k' => k'.supports t.header.alg = true) :=
  ⟨fun _ => h.exists_perm, h.orderFree_iff, h.findsNamed_iff⟩

def doubled : Document :=
  listing [] [.pointKey (some "k"), .edwardsKey (some "l"), .pointKey none, .edwardsKey (some "l")]

theorem orderFree_doubled : ∃ r, doubled.Builds r ∧ doubled.OrderFree (.naming .edDSA (some "l")) := by
  have h : ∃ r, doubled.Builds r := exists_builds_iff.mpr (by decide +kernel)
  obtain ⟨r, hr⟩ := h
  refine ⟨r, hr, (orderFree hr (.naming .edDSA (some "l"))).2.1.mpr (.inr ?_)⟩
  intro id hid
  obtain rfl := Option.some.inj hid
  decide +kernel

def shared : Document := listing [] [.pointKey (some "k"), .edwardsKey (some "k")]

/-- The key is there and fits, but it is hidden behind the one that does not. -/
theorem not_orderFree_shared :
    (∃ r, shared.Builds r ∧ r.selectKey (.naming .edDSA (some "k")) = .error .absent) ∧
      (∃ r k, { shared with jwks := shared.jwks.reverse }.Builds r ∧
        r.selectKey (.naming .edDSA (some "k")) = .ok k) ∧
      ¬shared.OrderFree (.naming .edDSA (some "k")) ∧ ¬shared.FindsNamed (.naming .edDSA (some "k")) := by
  have haccepted {keys : Jwks} :
      ¬{ shared with jwks := keys }.Refuses (.naming .edDSA (some "k")) := by
    rintro (h | h) <;> cases h
  obtain ⟨r, hr⟩ : ∃ r, shared.Builds r := exists_builds_iff.mpr (by decide +kernel)
  obtain ⟨r', hr'⟩ := hr.exists_perm (List.reverse_perm shared.jwks)
  have hmiss : r.selectKey (.naming .edDSA (some "k")) = .error .absent := by
    rw [hr.selectKey_eq haccepted]
    decide +kernel
  obtain ⟨k, hk⟩ : ∃ k, (KeySet.ofJwks shared.jwks.reverse).find? (some "k") .edDSA = some k :=
    Option.isSome_iff_exists.mp (by decide +kernel)
  have hfind : r'.selectKey (.naming .edDSA (some "k")) = .ok k := (hr'.selectKey_ok_iff haccepted).mpr hk
  refine ⟨⟨r, hr, hmiss⟩, ⟨r', k, hr', hfind⟩, ?_, ?_⟩
  · intro hfree
    have heq := (hfree _ (List.reverse_perm _) r r' hr hr').eq
    rw [hmiss, hfind] at heq
    cases heq
  · intro hfinds
    have hfits : ∃ k ∈ KeySet.ofJwks shared.jwks, k.kid = some "k".toList ∧ k.supports .edDSA = true := by
      decide +kernel
    obtain ⟨k, hk, hkid, hs⟩ := hfits
    obtain ⟨k', hk'⟩ := hfinds _ (List.Perm.refl _) r hr haccepted "k" rfl k hk hkid hs
    cases hmiss.symm.trans hk'

end Document

end BearerGate
