import BearerGate.Proofs.Text.Parts
import BearerGate.Trust

namespace BearerGate

open Text

namespace IssuerUrl

theorem dropSlashes_eq {t : Text} (hend : t.getLast? ≠ some '/') : dropSlashes t = t := by
  rw [dropSlashes, dropEndWhile_eq_rdropWhile, List.rdropWhile_eq_self_iff]
  intro hl
  rw [List.getLast?_eq_some_getLast hl] at hend
  simpa using hend

theorem getLast?_dropSlashes (t : Text) : (dropSlashes t).getLast? ≠ some '/' := by
  rw [dropSlashes, dropEndWhile_eq_rdropWhile]
  intro hl
  have hne : t.rdropWhile (· = '/') ≠ [] := by
    rintro he
    simp [he] at hl
  rw [List.getLast?_eq_some_getLast hne, Option.some.injEq] at hl
  exact List.rdropWhile_last_not _ _ hne (by simp [hl])

theorem normalForm_trim (url : Text) : normalForm (trim url) = normalForm url := by
  rw [normalForm, normalForm, trim_trim]

theorem normalForm_of_blank {url : Text} (h : trim url = []) : normalForm url = [] := by
  rw [normalForm, h]
  rfl

theorem cutAt?_append_realm {base realm : Text} (hend : base.getLast? ≠ some '/')
    (hslash : '/' ∉ realm) (hcut : cutAt? "://" base = none) :
    cutAt? "://" (base ++ '/' :: realm) = none := by
  rw [cutAt?_eq_none_iff (by decide)] at hcut ⊢
  rintro ⟨s, u, he⟩
  rcases List.append_eq_append_iff.mp he with ⟨a, hbase, -⟩ | ⟨c, hsep, htail⟩
  · exact hcut ⟨s, a, hbase.symm⟩
  · cases c with
    | nil => exact hcut ⟨s, [], by simpa using hsep⟩
    | cons x c =>
        obtain ⟨rfl, rfl⟩ : '/' = x ∧ realm = c ++ u := by simpa using htail
        rcases List.eq_nil_or_concat c with rfl | ⟨c, y, rfl⟩
        · have hsplit : (s ++ [':', '/']) ++ ['/'] = base ++ ['/'] := by simpa using hsep
          have hbase := List.append_cancel_right hsplit
          exact hend (by simp [← hbase])
        · have hy : s ++ [':', '/'] ++ ['/'] = base ++ '/' :: c ++ [y] := by simpa using hsep
          have := (List.append_inj' hy rfl).2
          simp_all

theorem takeWhile_append_slash (rest realm : Text) :
    (rest ++ '/' :: realm).takeWhile (· ≠ '/') = rest.takeWhile (· ≠ '/') ∧
      (rest ++ '/' :: realm).dropWhile (· ≠ '/') = rest.dropWhile (· ≠ '/') ++ '/' :: realm := by
  induction rest with
  | nil => simp
  | cons c r ih =>
      by_cases h : c = '/'
      · subst h
        simp
      · simpa [h] using ih

theorem normalForm_below {base url realm : Text} (hslash : '/' ∉ realm)
    (h : dropSlashes (trim url) = dropSlashes (trim base) ++ '/' :: realm) :
    normalForm url = normalForm base ++ '/' :: realm := by
  have hend := getLast?_dropSlashes (trim base)
  rw [normalForm, normalForm, h]
  cases hcut : cutAt? "://" (dropSlashes (trim base)) with
  | none => rw [cutAt?_append_realm hend hslash hcut]
  | some p =>
      obtain ⟨scheme, rest⟩ := p
      obtain ⟨ht, hd⟩ := takeWhile_append_slash rest realm
      rw [cutAt?_append hcut (by decide) _]
      simp only [ht, hd, List.append_assoc]

theorem getLast?_append_realm {base realm : Text} (hne : realm ≠ []) (hslash : '/' ∉ realm) :
    (base ++ '/' :: realm).getLast? ≠ some '/' := by
  intro h
  rw [List.getLast?_append_of_ne_nil _ (by simp), List.getLast?_cons_of_ne_nil hne] at h
  exact hslash (List.mem_of_getLast? h)

/-- Any realm name can be claimed: a slash behind it keeps white space at its end. -/
theorem exists_below (base : Text) {realm : Text} (hne : realm ≠ []) (hslash : '/' ∉ realm) :
    ∃ url, normalForm url = normalForm base ++ '/' :: realm := by
  have hstart : trimStart (dropSlashes (trim base) ++ ('/' :: realm ++ ['/'])) =
      dropSlashes (trim base) ++ ('/' :: realm ++ ['/']) := by
    have hhead : dropSlashes (trim base) <+: trim base := List.rdropWhile_prefix _ _
    exact trimStart_append (trimStart_of_isPrefix (hhead.trans (List.rdropWhile_prefix _ _))) rfl
  refine ⟨dropSlashes (trim base) ++ ('/' :: realm ++ ['/']), normalForm_below hslash ?_⟩
  rw [trim, hstart, ← List.append_assoc, trimEnd, dropEndWhile_eq_rdropWhile,
    List.rdropWhile_concat_neg _ _ _ (by decide), dropSlashes, dropEndWhile_eq_rdropWhile,
    List.rdropWhile_concat_pos _ _ _ (by decide)]
  exact dropSlashes_eq (getLast?_append_realm hne hslash)

theorem normalForm_append_realm {base realm : Text} (hb : base.IsSolid)
    (hend : base.getLast? ≠ some '/') (hr : realm.IsSolid) (hne : realm ≠ []) (hslash : '/' ∉ realm) :
    normalForm (base ++ '/' :: realm) = normalForm base ++ '/' :: realm := by
  have hsolid : IsSolid (base ++ '/' :: realm) := by
    refine hb.append ?_
    intro c hc
    rcases List.mem_cons.mp hc with rfl | h
    · decide
    · exact hr c h
  apply normalForm_below hslash
  rw [hsolid.trim_eq, hb.trim_eq, dropSlashes_eq hend, dropSlashes_eq (getLast?_append_realm hne hslash)]

end IssuerUrl

open IssuerUrl

/-- No white space in the URLs and realm names of a configuration. -/
def TrustSettings.IsSolid (s : TrustSettings) : Prop :=
  (∀ i ∈ s.issuers, i.issuer.IsSolid) ∧
    ∀ r ∈ s.realms, r.baseUrl.IsSolid ∧ ∀ p ∈ r.tenants, p.1.IsSolid

instance (s : TrustSettings) : Decidable s.IsSolid := inferInstanceAs (Decidable (_ ∧ _))

theorem RealmRule.resolve?_eq_some_iff {r : RealmRule} {claimed : Text} {i : TrustedIssuer} :
    r.resolve? claimed = some i ↔
      ∃ realm tenant, normalForm claimed = normalForm r.base ++ '/' :: realm ∧ realm ≠ [] ∧
        '/' ∉ realm ∧ r.tenants.lookup realm = some tenant ∧
        i = ⟨r.base ++ '/' :: realm, .tenant tenant⟩ := by
  have hafter (realm : Text) :
      after? (normalForm r.base ++ ['/']) (normalForm claimed) = some realm ↔
        normalForm claimed = normalForm r.base ++ '/' :: realm := by
    rw [after?_eq_some_iff, List.append_assoc, List.singleton_append]
  constructor
  · intro h
    obtain ⟨realm, hrealm, h⟩ := Option.bind_eq_some_iff.mp h
    split at h
    · cases h
    · rename_i hne
      obtain ⟨tenant, htenant, h⟩ := Option.bind_eq_some_iff.mp h
      obtain ⟨hnil, hslash⟩ := not_or.mp hne
      exact ⟨realm, tenant, (hafter realm).mp hrealm, hnil, hslash, htenant, (Option.some.inj h).symm⟩
  · rintro ⟨realm, tenant, hrealm, hnil, hslash, htenant, rfl⟩
    simp [RealmRule.resolve?, (hafter realm).mpr hrealm, hnil, hslash, htenant]

theorem RealmRule.eq_of_url {r : RealmRule} {u v : Text} {i j : TrustedIssuer} (hi : r.resolve? u = some i)
    (hj : r.resolve? v = some j) (hurl : i.url = j.url) : i = j := by
  obtain ⟨realm, tenant, -, -, -, htenant, rfl⟩ := RealmRule.resolve?_eq_some_iff.mp hi
  obtain ⟨realm', tenant', -, -, -, htenant', rfl⟩ := RealmRule.resolve?_eq_some_iff.mp hj
  obtain rfl : realm = realm' := by simpa using hurl
  rw [htenant] at htenant'
  obtain rfl := Option.some.inj htenant'
  rfl

namespace TrustPolicy

theorem resolve?_congr (p : TrustPolicy) {u v : Text} (h : normalForm u = normalForm v) :
    p.resolve? u = p.resolve? v := by
  simp only [resolve?, RealmRule.resolve?, h]

theorem resolve?_cases {p : TrustPolicy} {claimed : Text} {i : TrustedIssuer} (h : p.resolve? claimed = some i) :
    p.issuers.lookup (normalForm claimed) = some i ∨
      p.issuers.lookup (normalForm claimed) = none ∧ ∃ r, p.realms = some r ∧ r.resolve? claimed = some i := by
  rw [resolve?] at h
  split at h
  · rename_i j hj
    exact .inl (hj.trans h)
  · rename_i hnone
    obtain ⟨r, hr, h⟩ := Option.bind_eq_some_iff.mp h
    exact .inr ⟨hnone, r, hr, h⟩

theorem exists_listed {s : TrustSettings} {n : Text} {i : TrustedIssuer}
    (h : (ofSettings s).issuers.lookup n = some i) :
    normalForm i.url = n ∧ ∃ e ∈ s.issuers, listed? e = some i := by
  simp only [ofSettings, Assoc.lookup_ofList] at h
  have hm := Assoc.mem_of_lookup h
  simp only [List.mem_reverse, List.mem_map, Prod.mk.injEq] at hm
  obtain ⟨j, hj, hn, rfl⟩ := hm
  exact ⟨hn, List.mem_filterMap.mp hj⟩

theorem normalForm_of_listed {s : TrustSettings} {n : Text} {i : TrustedIssuer}
    (h : (ofSettings s).issuers.lookup n = some i) : normalForm i.url = n := (exists_listed h).1

variable {s : TrustSettings} {claimed : Text} {i : TrustedIssuer}

theorem normalForm_of_realm (h : s.IsSolid) {r : RealmRule} (hr : (ofSettings s).realms = some r)
    (hi : r.resolve? claimed = some i) : normalForm i.url = normalForm claimed := by
  obtain ⟨realm, tenant, hclaimed, hnil, hslash, htenant, rfl⟩ := RealmRule.resolve?_eq_some_iff.mp hi
  simp only [ofSettings, Option.map_eq_some_iff] at hr
  obtain ⟨settings, hs, rfl⟩ := hr
  obtain ⟨hbase, hnames⟩ := h.2 settings hs
  have htrim : (RealmRule.make settings.baseUrl settings.tenants).base =
      settings.baseUrl.rdropWhile (· = '/') := by
    rw [RealmRule.make, hbase.trim_eq]
    rfl
  rw [hclaimed]
  apply normalForm_append_realm
  · rw [htrim]
    intro c hc
    exact hbase c ((List.rdropWhile_prefix _ _).subset hc)
  · exact getLast?_dropSlashes _
  · exact hnames _ (Assoc.mem_of_lookup htenant)
  · exact hnil
  · exact hslash

theorem normalForm_url (h : s.IsSolid) (hi : (ofSettings s).resolve? claimed = some i) :
    normalForm i.url = normalForm claimed := by
  rcases resolve?_cases hi with hi | ⟨-, r, hr, hi⟩
  · exact normalForm_of_listed hi
  · exact normalForm_of_realm h hr hi

theorem resolve?_url (h : s.IsSolid) (hi : (ofSettings s).resolve? claimed = some i) :
    (ofSettings s).resolve? i.url = some i := by
  rw [resolve?_congr _ (normalForm_url h hi), hi]

/-- Each canonical URL stands for one issuer. -/
def Unambiguous (p : TrustPolicy) : Prop :=
  ∀ u v i j, p.resolve? u = some i → p.resolve? v = some j → i.url = j.url → i = j

/-- Only a realm whose canonical URL is that of a listed issuer can be taken for another. -/
theorem unambiguous_iff : (ofSettings s).Unambiguous ↔
    ∀ u i j, (ofSettings s).issuers.lookup (normalForm u) = none →
      (ofSettings s).realms.bind (·.resolve? u) = some i →
      (ofSettings s).issuers.lookup (normalForm i.url) = some j → i.url = j.url → i = j := by
  constructor
  · intro h u i j hu hi hj hurl
    refine h u i.url i j ?_ ?_ hurl
    · simp only [resolve?, hu, hi]
    · simp only [resolve?, hj]
  · intro h u v i j hi hj hurl
    rcases resolve?_cases hi with hu | ⟨hu, r, hr, hi⟩
    · rcases resolve?_cases hj with hv | ⟨hv, r, hr, hj⟩
      · have hnormal : normalForm u = normalForm v := by
          rw [← normalForm_of_listed hu, hurl, normalForm_of_listed hv]
        rw [hnormal, hv] at hu
        exact (Option.some.inj hu).symm
      · refine (h v j i hv (Option.bind_eq_some_iff.mpr ⟨r, hr, hj⟩) ?_ hurl.symm).symm
        rw [← hurl, normalForm_of_listed hu, hu]
    · rcases resolve?_cases hj with hv | ⟨hv, r', hr', hj⟩
      · refine h u i j hu (Option.bind_eq_some_iff.mpr ⟨r, hr, hi⟩) ?_ hurl
        rw [hurl, normalForm_of_listed hv, hv]
      · obtain rfl := Option.some.inj (hr.symm.trans hr')
        exact RealmRule.eq_of_url hi hj hurl

/-- A spelling `u` names a realm, and the canonical URL of the realm names a listed issuer of that URL. -/
structure Shadows (p : TrustPolicy) (u : Text) (i j : TrustedIssuer) : Prop where
  realm : p.resolve? u = some i
  listed : p.resolve? i.url = some j
  url : i.url = j.url
  ne : i ≠ j
  tenant : ∃ id, i.binding = .tenant id
  trim_ne_nil : trim u ≠ []
  trim_url_ne_nil : trim i.url ≠ []

theorem exists_shadows (h : ¬(ofSettings s).Unambiguous) : ∃ u i j, (ofSettings s).Shadows u i j := by
  rw [unambiguous_iff] at h
  push Not at h
  obtain ⟨u, i, j, hu, hi, hj, hurl, hne⟩ := h
  obtain ⟨r, hr, hi'⟩ := Option.bind_eq_some_iff.mp hi
  obtain ⟨realm, tenant, hnormal, -, -, -, rfl⟩ := RealmRule.resolve?_eq_some_iff.mp hi'
  exact ⟨u, _, j,
    { realm := by simp only [resolve?, hu, hi]
      listed := by simp only [resolve?, hj]
      url := hurl
      ne := hne
      tenant := ⟨tenant, rfl⟩
      trim_ne_nil := by
        intro hblank
        rw [normalForm_of_blank hblank] at hnormal
        simp at hnormal
      trim_url_ne_nil := by
        intro hblank
        have hslash := isBlank_of_trim_eq_nil hblank (c := '/') (by simp)
        exact absurd hslash (by decide) }⟩

theorem unambiguous_of_isSolid (h : s.IsSolid) : (ofSettings s).Unambiguous := by
  intro u v i j hi hj hurl
  have hii := resolve?_url h hi
  rw [hurl, resolve?_url h hj] at hii
  exact (Option.some.inj hii).symm

end TrustPolicy

end BearerGate
