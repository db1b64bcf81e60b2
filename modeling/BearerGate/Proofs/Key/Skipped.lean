import BearerGate.Issuer.Discovery
import Mathlib.Data.List.Basic

namespace BearerGate

namespace Raw

/-- Changes the value of the member of that name, in an object or in an array of this one field. -/
def mapMember (name : Text) (g : Raw → Raw) : Raw → Raw
  | object members => object (members.map fun m => if unquote? m.1 = some name then (m.1, g m.2) else m)
  | array [v] => array [g v]
  | r => r

variable {name : Text} {g : Raw → Raw}

theorem names?_mapMember (name : Text) (g : Raw → Raw) (l : List (Bytes × Raw)) :
    names? (l.map fun m => if unquote? m.1 = some name then (m.1, g m.2) else m) =
      (names? l).map (List.map fun m => if m.1 = name then (m.1, g m.2) else m) := by
  induction l with
  | nil => rfl
  | cons m r ih =>
      obtain ⟨k, v⟩ := m
      rw [List.map_cons]
      cases hk : unquote? k with
      | none => simp [names?, hk]
      | some n =>
          by_cases hn : n = name
          · simp only [hn, if_true, names?, hk, ih]
            cases names? r with
            | none => rfl
            | some s => simp
          · simp only [Option.some.injEq, hn, if_false, names?, hk, ih]
            cases names? r with
            | none => rfl
            | some s => simp [hn]

theorem only?_mapMember (name : Text) (g : Raw → Raw) (l : List (Text × Raw)) :
    only? name (l.map fun m => if m.1 = name then (m.1, g m.2) else m) =
      (only? name l).map (Option.map g) := by
  have hkeys (r : List (Text × Raw)) :
      (r.map fun m => if m.1 = name then (m.1, g m.2) else m).any (·.1 = name) = r.any (·.1 = name) := by
    rw [List.any_map]
    congr 1
    funext m
    simp only [Function.comp_apply]
    split <;> rfl
  induction l with
  | nil => rfl
  | cons m r ih =>
      obtain ⟨k, v⟩ := m
      rw [List.map_cons]
      by_cases hk : k = name
      · simp only [hk, if_true, only?, hkeys]
        split <;> rfl
      · simp only [hk, if_false, only?, ih]

theorem fields?_mapMember (name : Text) (g : Raw → Raw) (d : Raw) :
    (d.mapMember name g).fields? [name] =
      (d.fields? [name]).map fun f => ⟨f.values.map (Option.map g), f.positional⟩ := by
  cases d with
  | object members =>
      rw [mapMember, fields?, fields?, names?_mapMember]
      cases names? members with
      | none => rfl
      | some l =>
          simp only [Option.map_some, Option.bind_eq_bind, Option.bind_some, List.mapM_cons, List.mapM_nil,
            only?_mapMember]
          cases only? name l <;> rfl
  | array items =>
      match items with
      | [] => rfl
      | [v] => rfl
      | _ :: _ :: _ => simp [mapMember, fields?]
  | null | bool | number | string => rfl

end Raw

namespace Jwks

def entries? (d : Raw) : Option (List Raw) :=
  match (d.fields? ["keys"]).bind (·.raw? 0) with
  | some (.array entries) => some entries
  | _ => none

def withEntries (entries : List Raw) (d : Raw) : Raw := d.mapMember "keys" fun _ => .array entries

variable {d : Raw} {entries : List Raw}

theorem ofRaw?_of_entries (h : entries? d = some entries) : ofRaw? d = entries.mapM Jwk.ofRaw? := by
  rw [entries?] at h
  split at h
  · rename_i es he
    obtain ⟨f, hf, hraw⟩ := Option.bind_eq_some_iff.mp he
    obtain rfl := Option.some.inj h
    simp only [ofRaw?, hf, Option.bind_eq_bind, Option.bind_some, Raw.Fields.withDefault?, hraw, Raw.list?]
  · cases h

theorem entries?_withEntries (h : entries? d = some entries) (es : List Raw) :
    entries? (withEntries es d) = some es := by
  rw [entries?] at h ⊢
  split at h
  · rename_i he
    obtain ⟨f, hf, hraw⟩ := Option.bind_eq_some_iff.mp he
    rw [Raw.Fields.raw?] at hraw
    rw [withEntries, Raw.fields?_mapMember, hf, Option.map_some, Option.bind_some, Raw.Fields.raw?,
      List.getElem?_map, Option.join_map_eq_map_join, hraw, Option.map_some]
  · cases h

theorem mapM_insert (a b : List Raw) (j : Raw) {ks : List Jwk} (h : (a ++ b).mapM Jwk.ofRaw? = some ks) :
    (Jwk.ofRaw? j = none → (a ++ j :: b).mapM Jwk.ofRaw? = none) ∧
      ∀ k, Jwk.ofRaw? j = some k → ∃ before after, ks = before ++ after ∧
        (a ++ j :: b).mapM Jwk.ofRaw? = some (before ++ k :: after) := by
  rw [List.mapM_append] at h ⊢
  simp only [Option.bind_eq_bind, Option.bind_eq_some_iff] at h
  obtain ⟨before, hbefore, after, hafter, h⟩ := h
  obtain rfl := Option.some.inj h
  rw [hbefore, List.mapM_cons, hafter]
  refine ⟨fun hj => ?_, fun k hk => ⟨before, after, rfl, ?_⟩⟩
  · rw [hj]
    rfl
  · rw [hk]
    rfl

/-- The entry is no key that could verify anything: it is no published key at all, or one for encryption, or
one that is faulty. -/
def Useless (j : Raw) : Prop := (Jwk.ofRaw? j).bind Jwk.usable? = none

instance (j : Raw) : Decidable (Useless j) := inferInstanceAs (Decidable (_ = none))

/-- The entry may stand in the document, between the other ones, without any change to the usable keys. -/
def Skips (d : Raw) (a : List Raw) (j : Raw) (b : List Raw) : Prop :=
  ∃ keys, ofRaw? (withEntries (a ++ j :: b) d) = some keys ∧
    (ofRaw? d).map KeySet.ofJwks = some (KeySet.ofJwks keys)

/-- A useless entry of a key set is skipped, wherever it stands, if it is a published key at least. Any other
one takes the whole document down. -/
theorem skips_iff {a b : List Raw} {j : Raw} {keys : Jwks} (hd : entries? d = some (a ++ b))
    (hkeys : ofRaw? d = some keys) (hj : Useless j) :
    (Skips d a j b ↔ ∃ k, Jwk.ofRaw? j = some k) ∧
      (Jwk.ofRaw? j = none → ofRaw? (withEntries (a ++ j :: b) d) = none) := by
  have hread := hkeys
  rw [ofRaw?_of_entries hd] at hread
  obtain ⟨hnone, hsome⟩ := mapM_insert a b j hread
  have hinsert := ofRaw?_of_entries (entries?_withEntries hd (a ++ j :: b))
  refine ⟨⟨?_, ?_⟩, fun h => hinsert.trans (hnone h)⟩
  · rintro ⟨keys', hkeys', -⟩
    cases h : Jwk.ofRaw? j with
    | none => cases (hinsert.trans (hnone h)).symm.trans hkeys'
    | some k => exact ⟨k, rfl⟩
  · rintro ⟨k, hk⟩
    obtain ⟨before, after, rfl, hmapped⟩ := hsome k hk
    have huseless : k.usable? = none := by simpa [Useless, hk] using hj
    refine ⟨before ++ k :: after, hinsert.trans hmapped, ?_⟩
    rw [hkeys, Option.map_some, KeySet.ofJwks, KeySet.ofJwks, List.filterMap_append, List.filterMap_append,
      List.filterMap_cons_none huseless]

def signingEntry : Raw :=
  .object [(Utf8.encode "kty", .string (Utf8.encode "OKP")), (Utf8.encode "crv", .string (Utf8.encode "Ed25519")),
    (Utf8.encode "x", .string (Utf8.encode "DZR1rSAnWZNeWqqvusH5Af3N5vS5QoKdcu-M61KA-ys"))]

def encryptionEntry : Raw :=
  .object [(Utf8.encode "kty", .string (Utf8.encode "RSA")), (Utf8.encode "use", .string (Utf8.encode "enc"))]

def oneKey : Raw := .object [(Utf8.encode "keys", .array [signingEntry])]

def signingJwk : Jwk where
  kty := "OKP"
  kid := none
  use := none
  alg := none
  n := none
  e := none
  crv := some "Ed25519"
  x := some "DZR1rSAnWZNeWqqvusH5Af3N5vS5QoKdcu-M61KA-ys"
  y := none

theorem ofRaw?_oneKey : ofRaw? oneKey = some [signingJwk] := by decide +kernel

theorem skips_encryption :
    entries? oneKey = some ([] ++ [signingEntry]) ∧ ofRaw? oneKey = some [signingJwk] ∧
      Useless encryptionEntry ∧ Skips oneKey [] encryptionEntry [signingEntry] := by
  have hentries : entries? oneKey = some ([] ++ [signingEntry]) := rfl
  have huseless : Useless encryptionEntry := by decide +kernel
  have hpublished : ∃ k, Jwk.ofRaw? encryptionEntry = some k :=
    Option.isSome_iff_exists.mp (by decide +kernel)
  exact ⟨hentries, ofRaw?_oneKey, huseless, (skips_iff hentries ofRaw?_oneKey huseless).1.mpr hpublished⟩

def keysPage (more : Text) : Discovery.Page where
  status := 200
  fields := []
  body := Utf8.encode ("\x7b\"keys\":[\x7b\"kty\":\"OKP\",\"crv\":\"Ed25519\",\"x\":" ++
    "\"DZR1rSAnWZNeWqqvusH5Af3N5vS5QoKdcu-M61KA-ys\"\x7d" ++ more ++ "]\x7d")

/-- An object without members behind a good key: what the issuer serves is no longer a key set. -/
theorem not_skips_nameless :
    entries? oneKey = some ([signingEntry] ++ []) ∧ ofRaw? oneKey = some [signingJwk] ∧ Useless (.object []) ∧
      ¬Skips oneKey [signingEntry] (.object []) [] ∧
        Discovery.readKeys (keysPage []) = .ok [signingJwk] ∧
          Discovery.readKeys (keysPage ",\x7b\x7d") = .error (.unreadable .keys "invalid JSON") := by
  refine ⟨rfl, ofRaw?_oneKey, by decide +kernel, ?_, by decide +kernel, by decide +kernel⟩
  rintro ⟨keys, hkeys, -⟩
  have hnone : ofRaw? (withEntries ([signingEntry] ++ .object [] :: []) oneKey) = none := by decide +kernel
  cases hnone.symm.trans hkeys

end Jwks

end BearerGate
