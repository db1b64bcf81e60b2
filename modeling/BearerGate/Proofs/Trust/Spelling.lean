import BearerGate.Proofs.Trust.Canonical
import Mathlib

namespace BearerGate

namespace Text

variable {s t : Text} {c d : Char}

theorem toLower_eq_iff (hd : d.isAlpha = false) : c.toLower = d ↔ c = d := by
  constructor
  · rintro rfl
    rw [Char.isAlpha_toLower_eq_isAlpha, Char.isAlpha, Bool.or_eq_false_iff] at hd
    rw [Char.toLower_eq_of_not_isUpper (by simp [hd.1])]
  · rintro rfl
    rw [Char.isAlpha, Bool.or_eq_false_iff] at hd
    exact Char.toLower_eq_of_not_isUpper (by simp [hd.1])

theorem mem_lower_iff (hd : d.isAlpha = false) : d ∈ lower t ↔ d ∈ t := by
  simp only [lower, List.mem_map, toLower_eq_iff hd, exists_eq_right]

theorem lower_of_not_isAlpha (h : ∀ c ∈ t, c.isAlpha = false) : lower t = t := by
  conv_rhs => rw [← List.map_id t]
  exact List.map_congr_left fun c hc => (toLower_eq_iff (h c hc)).mpr rfl

theorem infix_lower_iff (hs : ∀ c ∈ s, c.isAlpha = false) : s <:+: lower t ↔ s <:+: t := by
  rw [lower, List.infix_map_iff]
  constructor
  · rintro ⟨u, hu, rfl⟩
    have hfolded : lower u = u := by
      refine lower_of_not_isAlpha fun c hc => ?_
      rw [← Char.isAlpha_toLower_eq_isAlpha]
      exact hs _ (List.mem_map_of_mem hc)
    rwa [← lower, hfolded]
  · exact fun h => ⟨s, h, (lower_of_not_isAlpha hs).symm⟩

end Text

open Text

namespace IssuerUrl

theorem dropSlashes_append {s : Text} (hend : s.getLast? ≠ some '/') (t : Text) :
    dropSlashes (s ++ t) = s ++ dropSlashes t := by
  have hs : (s.reverse.dropWhile (· = '/')).reverse = s := dropSlashes_eq hend
  simp only [dropSlashes, dropEndWhile, List.reverse_append, List.dropWhile_append]
  split
  · rename_i hnil
    rw [hs, List.isEmpty_iff.mp hnil, List.reverse_nil, List.append_nil]
  · rw [List.reverse_append, List.reverse_reverse]

theorem not_infix_separator {s : Text} (h : ¬"://".toList <:+: s) :
    ¬"://".toList <:+: s ++ "://".toList.dropLast := by
  have hsep : "://".toList = [':', '/'] ++ ['/'] := rfl
  have hs : s ++ "://".toList.dropLast = s ++ [':'] ++ ['/'] := by simp
  rw [hs, List.infix_concat_iff, List.infix_concat_iff, not_or, not_or]
  refine ⟨fun hsuffix => ?_, fun hsuffix => ?_, h⟩
  · obtain hnil | ⟨t, ht, hsuffix⟩ := List.suffix_concat_iff.mp hsuffix
    · cases hnil
    · obtain ⟨rfl, -⟩ := List.append_inj' (hsep.symm.trans ht) rfl
      obtain hnil | ⟨t, ht, -⟩ := List.suffix_concat_iff.mp hsuffix
      · cases hnil
      · have hslash : [':'] ++ ['/'] = t ++ [':'] := ht
        simpa using (List.append_inj' hslash rfl).2
  · obtain hnil | ⟨t, ht, -⟩ := List.suffix_concat_iff.mp hsuffix
    · cases hnil
    · simpa using (List.append_inj' (hsep.symm.trans ht) rfl).2

/-- A URL in its parts: the scheme before the first `://`, the authority up to the next slash, the path. -/
@[ext] structure Parts where
  scheme : Text
  authority : Text
  path : Text
  scheme_cut : ¬"://".toList <:+: scheme
  authority_ne_nil : authority ≠ []
  authority_slash : '/' ∉ authority
  path_rooted : path ≠ [] → path.head? = some '/'

namespace Parts

def text (u : Parts) : Text := u.scheme ++ "://" ++ (u.authority ++ u.path)

def stripped (u : Parts) : Parts where
  __ := u
  path := dropSlashes u.path
  path_rooted h := by
    obtain ⟨t, ht⟩ : dropSlashes u.path <+: u.path := List.rdropWhile_prefix _ _
    obtain ⟨c, r, hc⟩ := List.exists_cons_of_ne_nil h
    rw [hc, List.cons_append] at ht
    have hroot := u.path_rooted (by simp [← ht])
    rw [hc]
    rwa [← ht] at hroot

def folded (u : Parts) : Parts where
  __ := u
  scheme := lower u.scheme
  authority := lower u.authority
  scheme_cut := by
    rw [infix_lower_iff (by simp)]
    exact u.scheme_cut
  authority_ne_nil := by simpa [lower] using u.authority_ne_nil
  authority_slash := by
    rw [mem_lower_iff (by decide)]
    exact u.authority_slash

theorem cutAt?_text (u : Parts) : cutAt? "://" u.text = some (u.scheme, u.authority ++ u.path) :=
  cutAt?_append_sep (not_infix_separator u.scheme_cut) _

theorem takeWhile_authority (u : Parts) :
    (u.authority ++ u.path).takeWhile (· ≠ '/') = u.authority ∧
      (u.authority ++ u.path).dropWhile (· ≠ '/') = u.path := by
  have ha : ∀ c ∈ u.authority, decide (c ≠ '/') = true :=
    fun c hc => decide_eq_true fun he => u.authority_slash (he ▸ hc)
  rw [List.takeWhile_append_of_pos ha, List.dropWhile_append_of_pos ha]
  cases hp : u.path with
  | nil => simp
  | cons c r =>
      obtain rfl : c = '/' := by simpa [hp] using u.path_rooted (by simp [hp])
      simp

theorem text_injective : Function.Injective text := by
  intro u v h
  have hcut := u.cutAt?_text
  rw [h, v.cutAt?_text, Option.some.injEq, Prod.mk.injEq] at hcut
  obtain ⟨hscheme, hrest⟩ := hcut
  obtain ⟨hu, hu'⟩ := u.takeWhile_authority
  obtain ⟨hv, hv'⟩ := v.takeWhile_authority
  rw [← hrest] at hu hu'
  exact Parts.ext hscheme.symm (hu.symm.trans hv) (hu'.symm.trans hv')

theorem dropSlashes_text (u : Parts) : dropSlashes u.text = u.stripped.text := by
  have hend : (u.scheme ++ "://" ++ u.authority).getLast? ≠ some '/' := by
    rw [List.getLast?_append_of_ne_nil _ u.authority_ne_nil]
    exact fun he => u.authority_slash (List.mem_of_getLast? he)
  rw [text, ← List.append_assoc, dropSlashes_append hend, List.append_assoc]
  rfl

theorem normalForm_text {u : Parts} (h : u.text.IsSolid) : normalForm u.text = u.stripped.folded.text := by
  obtain ⟨hauthority, hpath⟩ := u.stripped.takeWhile_authority
  rw [normalForm, h.trim_eq, dropSlashes_text, cutAt?_text]
  simp only [hauthority, hpath]
  rw [List.append_assoc]
  rfl

/-- Two spellings have one normal form when their schemes and authorities are the same up to case and their
paths up to slashes at the end. -/
theorem normalForm_text_eq_iff {u v : Parts} (hu : u.text.IsSolid) (hv : v.text.IsSolid) :
    normalForm u.text = normalForm v.text ↔ lower u.scheme = lower v.scheme ∧
      lower u.authority = lower v.authority ∧ dropSlashes u.path = dropSlashes v.path := by
  rw [normalForm_text hu, normalForm_text hv, text_injective.eq_iff, Parts.ext_iff]
  rfl

end Parts

end IssuerUrl

open IssuerUrl

namespace TrustPolicy

/-- Without white space in the configuration a spelling and the canonical URL of its issuer have one normal
form, and all spellings of that form name this one issuer. What the normal form of a URL is depends on its
parts only. -/
theorem resolves_spellings {s : TrustSettings} (h : s.IsSolid) :
    (∀ u i, (ofSettings s).resolve? u = some i →
        normalForm u = normalForm i.url ∧ (ofSettings s).resolve? i.url = some i ∧
          ∀ v, normalForm v = normalForm u → (ofSettings s).resolve? v = some i) ∧
      (∀ u v i j, (ofSettings s).resolve? u = some i → (ofSettings s).resolve? v = some j → i.url = j.url →
        i.binding = j.binding) ∧
        ∀ a b : Parts, a.text.IsSolid → b.text.IsSolid →
          (normalForm a.text = normalForm b.text ↔ lower a.scheme = lower b.scheme ∧
            lower a.authority = lower b.authority ∧ dropSlashes a.path = dropSlashes b.path) := by
  refine ⟨fun u i hi => ⟨(normalForm_url h hi).symm, resolve?_url h hi, fun v hv => ?_⟩, ?_, ?_⟩
  · rw [resolve?_congr _ hv, hi]
  · intro u v i j hi hj hurl
    rw [unambiguous_of_isSolid h u v i j hi hj hurl]
  · exact fun a b => Parts.normalForm_text_eq_iff

def loginSettings : TrustSettings where
  issuers := [⟨"https://access.example/auth/realms/abc", some "tenant-abc", false, []⟩]
  realms := some ⟨"https://Login.example/realms/", [("r-123", "tenant-r")]⟩

def loginRealm : TrustedIssuer := ⟨"https://Login.example/realms/r-123", .tenant "tenant-r"⟩

def shoutedRealm : Parts where
  scheme := "HTTPS"
  authority := "LOGIN.example"
  path := "/realms/r-123//"
  scheme_cut := by decide
  authority_ne_nil := by decide
  authority_slash := by decide
  path_rooted := by decide

def canonicalRealm : Parts where
  scheme := "https"
  authority := "Login.example"
  path := "/realms/r-123"
  scheme_cut := by decide
  authority_ne_nil := by decide
  authority_slash := by decide
  path_rooted := by decide

theorem resolves_spellings_shouted :
    loginSettings.IsSolid ∧ shoutedRealm.text.IsSolid ∧ canonicalRealm.text.IsSolid ∧
      canonicalRealm.text = loginRealm.url ∧
        (ofSettings loginSettings).resolve? loginRealm.url = some loginRealm ∧
          (ofSettings loginSettings).resolve? shoutedRealm.text = some loginRealm := by
  have hsolid : loginSettings.IsSolid := by decide
  have hshouted : shoutedRealm.text.IsSolid := by decide
  have hcanonical : canonicalRealm.text.IsSolid := by decide
  have hresolve : (ofSettings loginSettings).resolve? "https://login.example/realms/r-123" = some loginRealm := by
    decide
  obtain ⟨hspelled, -, hparts⟩ := resolves_spellings hsolid
  obtain ⟨hform, hurl, hall⟩ := hspelled _ _ hresolve
  have hsame := (hparts shoutedRealm canonicalRealm hshouted hcanonical).mpr ⟨by decide, by decide, by decide⟩
  exact ⟨hsolid, hshouted, hcanonical, rfl, hurl, hall _ (hsame.trans hform.symm)⟩

end TrustPolicy

end BearerGate
