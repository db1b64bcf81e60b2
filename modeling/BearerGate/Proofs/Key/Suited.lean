import BearerGate.Proofs.Key.Selected

namespace BearerGate

namespace Algorithm

theorem named?_name (a : Algorithm) : named? a.name = some a := by
  cases a <;> decide

theorem named?_eq_some_iff {n : Text} {a : Algorithm} : named? n = some a ↔ n = a.name := by
  constructor
  · intro h
    have hn := List.find?_some (p := fun a : Algorithm => decide (a.name = n)) h
    exact (of_decide_eq_true hn).symm
  · rintro rfl
    exact named?_name a

theorem name_inj {a b : Algorithm} : a.name = b.name ↔ a = b := by
  rw [← named?_eq_some_iff, named?_name, Option.some.injEq]

theorem asymmetric?_eq_some_iff {n : Text} {a : Algorithm} :
    asymmetric? n = some a ↔ n = a.name ∧ a.isSymmetric = false := by
  rw [asymmetric?, Option.filter_eq_some_iff, named?_eq_some_iff, Bool.not_eq_true']

/-- The type that keys for the algorithm have; a shared secret is no published key. -/
def keyType? : Algorithm → Option Text
  | hs256 | hs384 | hs512 => none
  | rs256 | rs384 | rs512 | ps256 | ps384 | ps512 => some "RSA"
  | es256 | es384 => some "EC"
  | edDSA => some "OKP"

def curve? : Algorithm → Option Text
  | es256 => some "P-256"
  | es384 => some "P-384"
  | edDSA => some "Ed25519"
  | _ => none

end Algorithm

namespace KeyFamily

def keyType : KeyFamily → Text
  | rsa => "RSA"
  | p256 | p384 => "EC"
  | ed25519 => "OKP"

def curve? : KeyFamily → Option Text
  | rsa => none
  | p256 => some "P-256"
  | p384 => some "P-384"
  | ed25519 => some "Ed25519"

theorem fits_iff (f : KeyFamily) (a : Algorithm) :
    f.fits a = true ↔ a.keyType? = some f.keyType ∧ a.curve? = f.curve? := by
  cases f <;> cases a <;> decide

theorem isSome_curve? {f : KeyFamily} {a : Algorithm} (h : a.keyType? = some f.keyType) :
    a.curve?.isSome = f.curve?.isSome := by
  revert h
  cases f <;> cases a <;> decide

theorem curve?_eq {f : KeyFamily} {a : Algorithm} {crv : Option Text} (h : a.keyType? = some f.keyType)
    (hf : ∀ c, f.curve? = some c → crv = some c) (ha : ∀ c, a.curve? = some c → crv = some c) :
    a.curve? = f.curve? := by
  have hsome := isSome_curve? h
  cases hc : a.curve? with
  | none =>
      rw [hc] at hsome
      exact (Option.isSome_eq_false_iff.mp hsome.symm |> Option.isNone_iff_eq_none.mp).symm
  | some c =>
      rw [hc] at hsome
      obtain ⟨c', hc'⟩ := Option.isSome_iff_exists.mp hsome.symm
      exact ((ha c hc).symm.trans (hf c' hc')).trans hc'.symm

end KeyFamily

namespace Metadata

theorem allows_iff {m : Metadata} {a : Algorithm} :
    m.allows a = true ↔
      m.signingAlgorithms = [] ∨ a.isSymmetric = false ∧ a.name ∈ m.signingAlgorithms := by
  simp only [allows, Bool.or_eq_true, decide_eq_true_eq, List.any_eq_true,
    Algorithm.asymmetric?_eq_some_iff]
  refine or_congr_right ⟨?_, ?_⟩
  · rintro ⟨n, hn, rfl, ha⟩
    exact ⟨ha, hn⟩
  · rintro ⟨ha, hn⟩
    exact ⟨a.name, hn, rfl, ha⟩

end Metadata

namespace Jwk

variable {j : Jwk} {k : SigningKey} {a : Algorithm}

theorem need_ok {parameter : Text} {o : Option Text} {t : Text} (h : need parameter o = .ok t) :
    o = some t := by
  cases o with
  | none => cases h
  | some t' => exact congrArg some (Except.ok.inj h)

theorem exists_of_bind_ok {α β : Type} {x : Except Fault α} {f : α → Except Fault β} {b : β}
    (h : x >>= f = .ok b) : ∃ a, x = .ok a ∧ f a = .ok b := by
  cases x with
  | error e => cases h
  | ok a => exact ⟨a, rfl, h⟩

variable {m : PublicKey}

theorem rsa_ok (h : j.rsa = .ok m) : m.family = .rsa := by
  obtain ⟨n, -, h⟩ := exists_of_bind_ok h
  obtain ⟨e, -, h⟩ := exists_of_bind_ok h
  obtain ⟨bn, -, h⟩ := exists_of_bind_ok h
  obtain ⟨be, -, h⟩ := exists_of_bind_ok h
  obtain rfl := Except.ok.inj h
  rfl

theorem ec_ok (h : j.ec = .ok m) : m.family.keyType = "EC".toList ∧ j.crv = m.family.curve? := by
  obtain ⟨crv, hcrv, h⟩ := exists_of_bind_ok h
  rw [need_ok hcrv]
  split at h
  · rename_i hc
    obtain ⟨b, -, h⟩ := exists_of_bind_ok h
    obtain rfl := Except.ok.inj h
    exact ⟨rfl, congrArg some hc⟩
  · split at h
    · rename_i hc
      obtain ⟨b, -, h⟩ := exists_of_bind_ok h
      obtain rfl := Except.ok.inj h
      exact ⟨rfl, congrArg some hc⟩
    · cases h

theorem okp_ok (h : j.okp = .ok m) : m.family = .ed25519 ∧ j.crv = m.family.curve? := by
  obtain ⟨crv, hcrv, h⟩ := exists_of_bind_ok h
  rw [need_ok hcrv]
  split at h
  · rename_i hc
    obtain ⟨x, -, h⟩ := exists_of_bind_ok h
    obtain ⟨b, -, h⟩ := exists_of_bind_ok h
    obtain rfl := Except.ok.inj h
    exact ⟨rfl, congrArg some hc⟩
  · cases h

/-- An RSA key has no curve, and what it says of one is not looked at. -/
theorem material_ok (h : j.material = .ok m) :
    j.kty = m.family.keyType ∧ ∀ c, m.family.curve? = some c → j.crv = some c := by
  rw [material] at h
  split at h
  · rename_i ht
    rw [rsa_ok h]
    exact ⟨ht, fun c hc => nomatch hc⟩
  · split at h
    · rename_i ht
      obtain ⟨hkty, hcrv⟩ := ec_ok h
      exact ⟨ht.trans hkty.symm, fun c hc => hcrv.trans hc⟩
    · split at h
      · rename_i ht
        obtain ⟨hf, hcrv⟩ := okp_ok h
        rw [hf] at hcrv ⊢
        exact ⟨ht, fun c hc => hcrv.trans hc⟩
      · cases h

theorem signingKey_ok (h : j.signingKey = .ok k) :
    k.kid = j.kid ∧ j.pinned = .ok k.pinned ∧ j.material = .ok k.material := by
  obtain ⟨pinned, hp, h⟩ := exists_of_bind_ok h
  obtain ⟨m, hm, h⟩ := exists_of_bind_ok h
  split at h
  · split at h
    · obtain rfl := Except.ok.inj h
      exact ⟨rfl, hp, hm⟩
    · cases h
  · obtain rfl := Except.ok.inj h
    exact ⟨rfl, hp, hm⟩

theorem pinned_ok {o : Option Algorithm} (h : j.pinned = .ok o) : j.alg = o.map Algorithm.name := by
  rw [pinned] at h
  split at h
  · rename_i he
    obtain rfl := Except.ok.inj h
    exact he
  · rename_i n he
    split at h
    · rename_i a ha
      obtain rfl := Except.ok.inj h
      exact he.trans (congrArg some (Algorithm.asymmetric?_eq_some_iff.mp ha).1)
    · cases h

theorem usable?_eq_some (h : j.usable? = some k) : j.use ≠ some "enc".toList ∧ j.signingKey = .ok k := by
  rw [usable?] at h
  split at h
  · cases h
  · rename_i hu
    refine ⟨hu, ?_⟩
    cases hk : j.signingKey with
    | error f => simp [hk, Except.toOption] at h
    | ok k' => simpa [hk, Except.toOption] using h

/-- The published key is meant for the algorithm: it has its type and its curve, and names it if it names
one. -/
structure Suits (j : Jwk) (a : Algorithm) : Prop where
  keyType : a.keyType? = some j.kty
  curve : ∀ c, a.curve? = some c → j.crv = some c
  alg : j.alg = none ∨ j.alg = some a.name

/-- Whether a usable key supports an algorithm can be read off what is published. -/
theorem supports_iff (h : j.usable? = some k) : k.supports a = true ↔ j.Suits a := by
  obtain ⟨-, hp, hm⟩ := signingKey_ok (usable?_eq_some h).2
  obtain ⟨hkty, hcrv⟩ := material_ok hm
  have halg := pinned_ok hp
  have hpin : k.pinned.all (· = a) = true ↔ j.alg = none ∨ j.alg = some a.name := by
    rw [halg]
    cases k.pinned with
    | none => simp
    | some b => simp [Algorithm.name_inj]
  rw [SigningKey.supports, SigningKey.family, Bool.and_eq_true, KeyFamily.fits_iff, hpin, ← hkty]
  constructor
  · rintro ⟨⟨hk, hc⟩, hn⟩
    exact ⟨hk, fun c h => hcrv c (hc ▸ h), hn⟩
  · rintro ⟨hk, hc, hn⟩
    exact ⟨⟨hk, KeyFamily.curve?_eq (hkty ▸ hk) hcrv hc⟩, hn⟩

end Jwk

/-- The entry of the document that a key for the token is made from, with all entries before and after it. -/
structure Document.Offers (d : Document) (t : Unverified) (k : SigningKey) (a : Jwks) (j : Jwk) (b : Jwks) :
    Prop where
  keys : d.jwks = a ++ j :: b
  made : j.usable? = some k
  signing : j.use ≠ some "enc".toList
  asymmetric : t.header.alg.isSymmetric = false
  advertised : d.metadata.signingAlgorithms ≠ [] → t.header.alg.name ∈ d.metadata.signingAlgorithms
  suits : j.Suits t.header.alg
  kid : ∀ id, t.header.kid = some id → j.kid = some id
  only : t.header.kid = none → ∀ j' ∈ a ++ b, ∀ k', j'.usable? = some k' → k'.supports t.header.alg = false

namespace KeySet

variable {keys : Jwks} {k : SigningKey} {a : Algorithm}

theorem filter_ofJwks (p : SigningKey → Bool) :
    (ofJwks keys).filter p = keys.filterMap fun j => j.usable?.filter p :=
  List.filter_filterMap

theorem find?_none_eq_some_iff {keys : KeySet} :
    keys.find? none a = some k ↔ keys.filter (·.supports a) = [k] := by
  simp only [find?]
  constructor
  · intro h
    split at h
    · rename_i he
      rw [he, Option.some.inj h]
    · cases h
  · intro h
    rw [h]

theorem find?_none_split (h : (ofJwks keys).find? none a = some k) :
    ∃ before j after, keys = before ++ j :: after ∧ j.usable? = some k ∧
      ∀ j' ∈ before ++ after, ∀ k', j'.usable? = some k' → k'.supports a = false := by
  rw [find?_none_eq_some_iff, filter_ofJwks, List.filterMap_eq_cons_iff] at h
  obtain ⟨before, j, after, rfl, hbefore, hj, hafter⟩ := h
  rw [List.filterMap_eq_nil_iff] at hafter
  refine ⟨before, j, after, rfl, (Option.filter_eq_some_iff.mp hj).1, fun j' hj' k' hk' => ?_⟩
  have hnone : j'.usable?.filter (·.supports a) = none :=
    (List.mem_append.mp hj').elim (hbefore j') (hafter j')
  simpa [hk'] using hnone

theorem find?_split {kid : Option Text} (h : (ofJwks keys).find? kid a = some k) :
    ∃ before j after, keys = before ++ j :: after ∧ j.usable? = some k ∧
      (kid = none → ∀ j' ∈ before ++ after, ∀ k', j'.usable? = some k' → k'.supports a = false) := by
  cases kid with
  | none =>
      obtain ⟨before, j, after, hkeys, hj, honly⟩ := find?_none_split h
      exact ⟨before, j, after, hkeys, hj, fun _ => honly⟩
  | some id =>
      obtain ⟨j, hmem, hj⟩ := List.mem_filterMap.mp (find?_eq_some h).1
      obtain ⟨before, after, hkeys⟩ := List.mem_iff_append.mp hmem
      exact ⟨before, j, after, hkeys, hj, fun hn => nomatch hn⟩

end KeySet

namespace Record

variable {issuer : Text} {d : Document} {p : CachePolicy} {generation : Nat} {now : Millis} {r : Record}
  {t : Unverified} {k : SigningKey}

theorem selectKey_find (h : r.selectKey t = .ok k) :
    r.keys.find? t.header.kid t.header.alg = some k := by
  simp only [selectKey] at h
  split at h
  · cases h
  · split at h
    · rename_i hfind
      rw [hfind, Except.ok.inj h]
    · cases h

theorem selectKey_refused :
    r.selectKey t = .error .refused ↔
      (t.header.alg.isSymmetric || !r.metadata.allows t.header.alg) = true := by
  simp only [selectKey]
  split
  · rename_i h
    simp [h]
  · rename_i h
    split <;> simp [h]

theorem BuiltFrom.offers (hr : BuiltFrom issuer d r) (h : r.selectKey t = .ok k) :
    ∃ a j b, d.Offers t k a j b := by
  have hs := selectKey_ok h
  have hfind : (KeySet.ofJwks d.jwks).find? t.header.kid t.header.alg = some k := by
    rw [← hr.keys]
    exact selectKey_find h
  obtain ⟨a, j, b, hkeys, hj, honly⟩ := KeySet.find?_split hfind
  obtain ⟨huse, hkey⟩ := Jwk.usable?_eq_some hj
  have hallowed := Metadata.allows_iff.mp (hr.metadata ▸ hs.allowed)
  exact ⟨a, j, b, {
    keys := hkeys
    made := hj
    signing := huse
    asymmetric := hs.asymmetric
    advertised := fun hne => (hallowed.resolve_left hne).2
    suits := (Jwk.supports_iff hj).mp hs.supports
    kid := fun id hid => (Jwk.signingKey_ok hkey).1 ▸ hs.kid id hid
    only := honly }⟩

/-- No confusion of algorithms: the key that a record offers for a token is one that the issuer published for
the algorithm of the token, whatever else stands in the document. -/
theorem selectKey_sound (h : build issuer d p generation now = .ok r) (t : Unverified) :
    (∀ k, r.selectKey t = .ok k → ∃ a j b, d.Offers t k a j b) ∧
      (r.selectKey t = .error .refused ↔ t.header.alg.isSymmetric = true ∨
        d.metadata.signingAlgorithms ≠ [] ∧ t.header.alg.name ∉ d.metadata.signingAlgorithms) := by
  have hr := build_ok h
  refine ⟨fun k => hr.offers, ?_⟩
  rw [selectKey_refused, hr.metadata, Bool.or_eq_true, Bool.not_eq_true', ← Bool.not_eq_true,
    Metadata.allows_iff]
  cases t.header.alg.isSymmetric <;> simp

end Record

def Jwk.pointKey (kid : Option Text) : Jwk where
  kty := "EC"
  kid := kid
  use := none
  alg := none
  n := none
  e := none
  crv := some "P-256"
  x := some "qlYi6a_QHNzjwYegwS-73C8JpH6MHojys5_OER2cHgs"
  y := some "858ti19XA5U26FAyCl1neypD_yDUhFGtnQANWQ0c4h8"

def Jwk.edwardsKey (kid : Option Text) : Jwk where
  kty := "OKP"
  kid := kid
  use := none
  alg := none
  n := none
  e := none
  crv := some "Ed25519"
  x := some "DZR1rSAnWZNeWqqvusH5Af3N5vS5QoKdcu-M61KA-ys"
  y := none

def Document.listing (advertised : List Text) (keys : Jwks) : Document where
  metadata := ⟨"https://idp.example/abc", none, none, "https://idp.example/keys", advertised⟩
  jwks := keys
  maxAge := none

def CachePolicy.brief : CachePolicy := ⟨1000, 0, 1000, 1000, 0, 1000, 0⟩

def Unverified.naming (alg : Algorithm) (kid : Option Text) : Unverified :=
  ⟨[], ⟨alg, kid, none, none⟩, "https://idp.example/abc"⟩

def Document.mixed : Document :=
  listing ["HS256", "EdDSA"]
    [{ Jwk.edwardsKey none with use := some "enc" }, Jwk.pointKey none, Jwk.edwardsKey none]

theorem Record.selectKey_sound_mixed :
    ∃ r, build "https://idp.example/abc" .mixed .brief 1 0 = .ok r ∧
      (∃ k a j b, r.selectKey (.naming .edDSA none) = .ok k ∧
        Document.Offers .mixed (.naming .edDSA none) k a j b) ∧
      r.selectKey (.naming .hs256 none) = .error .refused := by
  have hr : ∃ r, build "https://idp.example/abc" .mixed .brief 1 0 = .ok r ∧
      ∃ k, r.selectKey (.naming .edDSA none) = .ok k := ⟨_, rfl, _, rfl⟩
  obtain ⟨r, hr, k, hk⟩ := hr
  obtain ⟨a, j, b, ho⟩ := (selectKey_sound hr (.naming .edDSA none)).1 k hk
  exact ⟨r, hr, ⟨k, a, j, b, hk, ho⟩, (selectKey_sound hr (.naming .hs256 none)).2.mpr (.inl rfl)⟩

end BearerGate
