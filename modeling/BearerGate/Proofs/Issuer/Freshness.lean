import BearerGate.Gate.Basic
import BearerGate.Issuer.CacheControl
import BearerGate.Proofs.Key.Suited
import BearerGate.Proofs.Text.Parts
import Mathlib.Order.MinMax

namespace BearerGate

namespace Text

def IsWord64 (t : Text) (n : Nat) : Prop :=
  ∃ digits, (t = digits ∨ t = '+' :: digits) ∧ digits ≠ [] ∧ (∀ c ∈ digits, c.isDigit = true) ∧
    n = Nat.ofDigitChars 10 digits 0 ∧ n < Word.size

section Number

variable {t : Text} {n : Nat}

theorem digits?_eq_some_iff :
    digits? t = some n ↔ t ≠ [] ∧ (∀ c ∈ t, c.isDigit = true) ∧ n = Nat.ofDigitChars 10 t 0 := by
  have hdigits : ¬(t.isEmpty || !t.all Char.isDigit) = true ↔ t ≠ [] ∧ ∀ c ∈ t, c.isDigit = true := by
    simp
  rw [← and_assoc, ← hdigits, digits?]
  split
  · rename_i h
    exact iff_of_false nofun fun hn => hn.1 h
  · rename_i h
    rw [Option.some.injEq, and_iff_right h, eq_comm]
    rfl

theorem getD_after?_plus {digits : Text} (ht : t = digits ∨ t = '+' :: digits)
    (hdigits : ∀ c ∈ digits, c.isDigit = true) : (after? "+" t).getD t = digits := by
  rcases ht with rfl | rfl
  · -- The sign is no digit.
    have hplus : after? "+" t = none := by
      rw [after?_eq_none_iff]
      intro hp
      cases hdigits '+' (hp.subset List.mem_cons_self)
    rw [hplus]
    rfl
  · have hplus : after? "+" ('+' :: digits) = some digits := after?_eq_some_iff.mpr rfl
    rw [hplus]
    rfl

theorem word64?_eq_some_iff : word64? t = some n ↔ t.IsWord64 n := by
  have hword : word64? t = some n ↔ digits? ((after? "+" t).getD t) = some n ∧ n < Word.size := by
    simp only [word64?, Option.bind_eq_bind, Option.bind_eq_some_iff, Option.ite_none_right_eq_some,
      Option.some.injEq]
    constructor
    · rintro ⟨m, hm, hlt, rfl⟩
      exact ⟨hm, hlt⟩
    · rintro ⟨hn, hlt⟩
      exact ⟨n, hn, hlt, rfl⟩
  rw [hword, digits?_eq_some_iff]
  constructor
  · rintro ⟨⟨hne, hdigits, hn⟩, hlt⟩
    refine ⟨_, ?_, hne, hdigits, hn, hlt⟩
    cases hplus : after? "+" t with
    | none => exact .inl rfl
    | some r => exact .inr (after?_eq_some_iff.mp hplus)
  · rintro ⟨digits, ht, hne, hdigits, hn, hlt⟩
    rw [getD_after?_plus ht hdigits]
    exact ⟨⟨hne, hdigits, hn⟩, hlt⟩

end Number

end Text

namespace CacheControl

/-- The directive is the word, up to white space around it and the case of ASCII letters. -/
def Says (d word : Text) : Prop := ∃ body, Text.Stripped Text.isBlank d body ∧ Text.lower body = word

def Forbids (d : Text) : Prop := Says d "no-cache" ∨ Says d "no-store"

def HasAge (d value : Text) : Prop := Says d ("max-age=".toList ++ value)

/-- The value is a number of seconds, with double quotes around it or without. -/
def IsSeconds (value : Text) (n : Nat) : Prop := ∃ t, Text.Stripped (· = '"') value t ∧ t.IsWord64 n

section Directive

variable {d word value : Text} {n : Nat}

theorem says_iff : Says d word ↔ Text.lower (Text.trim d) = word := by
  constructor
  · rintro ⟨body, hbody, rfl⟩
    exact congrArg Text.lower (Text.stripped_iff.mp hbody)
  · intro h
    exact ⟨Text.trim d, Text.stripped_iff.mpr rfl, h⟩

instance : Decidable (Says d word) := decidable_of_iff _ says_iff.symm

instance : Decidable (Forbids d) := inferInstanceAs (Decidable (_ ∨ _))

theorem isSeconds_iff : IsSeconds value n ↔ Text.word64? (trimQuotes value) = some n := by
  constructor
  · rintro ⟨t, ht, hn⟩
    have htrim : trimQuotes value = t := Text.stripped_iff.mp ht
    rw [htrim]
    exact Text.word64?_eq_some_iff.mpr hn
  · intro h
    exact ⟨trimQuotes value, Text.stripped_iff.mpr rfl, Text.word64?_eq_some_iff.mp h⟩

theorem parse_eq_forbid_iff : Directive.parse d = .forbid ↔ Forbids d := by
  rw [Forbids, says_iff, says_iff, Directive.parse]
  split
  · rename_i h
    exact iff_of_true rfl h
  · rename_i h
    refine iff_of_false ?_ h
    split <;> nofun

theorem HasAge.not_forbids (h : HasAge d value) : ¬Forbids d := by
  rw [HasAge, says_iff] at h
  rw [Forbids, says_iff, says_iff, h]
  rintro (h | h) <;> cases h

theorem parse_of_hasAge (h : HasAge d value) :
    Directive.parse d = .maxAge (Text.word64? (trimQuotes value)) := by
  have hf := h.not_forbids
  rw [Forbids, says_iff, says_iff] at hf
  rw [HasAge, says_iff] at h
  simp only [Directive.parse]
  rw [if_neg hf, Text.after?_eq_some_iff.mpr h]

theorem parse_of_not_hasAge (hf : ¬Forbids d) (h : ∀ v, ¬HasAge d v) : Directive.parse d = .other := by
  rw [Forbids, says_iff, says_iff] at hf
  simp only [Directive.parse]
  rw [if_neg hf]
  split
  · rename_i v hv
    exact absurd (says_iff.mpr (Text.after?_eq_some_iff.mp hv)) (h v)
  · rfl

end Directive

section Age

variable {l r : List Directive}

theorem age_of_forbid (h : .forbid ∈ l) (found : Option Nat) : age found l = some 0 := by
  induction l generalizing found with
  | nil => cases h
  | cons d l ih =>
      cases d with
      | forbid => rfl
      | maxAge seconds => exact ih ((List.mem_cons.mp h).resolve_left nofun) seconds
      | other => exact ih ((List.mem_cons.mp h).resolve_left nofun) found

theorem age_append (h : .forbid ∉ l) (found : Option Nat) : age found (l ++ r) = age (age found l) r := by
  induction l generalizing found with
  | nil => rfl
  | cons d l ih =>
      rw [List.mem_cons, not_or] at h
      cases d with
      -- Only here would the rest not be read.
      | forbid => exact absurd rfl h.1
      | maxAge seconds => exact ih h.2 seconds
      | other => exact ih h.2 found

theorem age_of_other (h : ∀ d ∈ l, d = .other) (found : Option Nat) : age found l = found := by
  induction l with
  | nil => rfl
  | cons d l ih =>
      obtain ⟨rfl, hl⟩ := List.forall_mem_cons.mp h
      exact ih hl

end Age

def Forbidden (header : Text) : Prop := ∃ d ∈ header.splitOn ',', Forbids d

def LastAge (header value : Text) : Prop :=
  ∃ before d after, header.splitOn ',' = before ++ d :: after ∧ HasAge d value ∧
    ∀ x ∈ after, ∀ v, ¬HasAge x v

def Ageless (header : Text) : Prop := ∀ d ∈ header.splitOn ',', ∀ v, ¬HasAge d v

instance : DecidablePred Forbidden := fun _ => inferInstanceAs (Decidable (∃ d ∈ _, Forbids d))

section Header

variable {header value : Text} {n : Nat}

theorem forbid_mem_iff {l : List Text} : .forbid ∈ l.map Directive.parse ↔ ∃ d ∈ l, Forbids d := by
  simp only [List.mem_map, parse_eq_forbid_iff]

theorem maxAge?_of_forbidden (h : Forbidden header) : maxAge? header = some 0 :=
  age_of_forbid (forbid_mem_iff.mpr h) none

theorem maxAge?_of_lastAge (hf : ¬Forbidden header) (h : LastAge header value) :
    maxAge? header = Text.word64? (trimQuotes value) := by
  obtain ⟨before, d, after, hsplit, hd, hafter⟩ := h
  rw [Forbidden, hsplit] at hf
  -- Nothing before the directive ends the reading, and nothing behind it changes the age.
  have hbefore : .forbid ∉ before.map Directive.parse := by
    rw [forbid_mem_iff]
    rintro ⟨x, hx, hforbids⟩
    exact hf ⟨x, List.mem_append_left _ hx, hforbids⟩
  have hother : ∀ x ∈ after.map Directive.parse, x = .other := by
    rw [List.forall_mem_map]
    intro x hx
    have hmem : x ∈ before ++ d :: after := List.mem_append_right _ (List.mem_cons_of_mem d hx)
    exact parse_of_not_hasAge (fun hforbids => hf ⟨x, hmem, hforbids⟩) (hafter x hx)
  rw [maxAge?, hsplit, List.map_append, List.map_cons, age_append hbefore, parse_of_hasAge hd, age,
    age_of_other hother]

theorem maxAge?_of_ageless (hf : ¬Forbidden header) (h : Ageless header) : maxAge? header = none := by
  refine age_of_other (List.forall_mem_map.mpr fun d hd => ?_) none
  exact parse_of_not_hasAge (fun hforbids => hf ⟨d, hd, hforbids⟩) (h d hd)

theorem lastAge_or_ageless (header : Text) : (∃ v, LastAge header v) ∨ Ageless header := by
  by_cases h : ∃ d ∈ header.splitOn ',', ∃ v, HasAge d v
  · obtain ⟨before, d, after, hsplit, ⟨v, hv⟩, hafter⟩ := exists_last h
    exact .inl ⟨v, before, d, after, hsplit, hv, fun x hx w hw => hafter x hx ⟨w, hw⟩⟩
  · exact .inr fun d hd v hv => h ⟨d, hd, v, hv⟩

theorem maxAge?_eq_some_iff (hf : ¬Forbidden header) :
    maxAge? header = some n ↔ ∃ v, LastAge header v ∧ IsSeconds v n := by
  constructor
  · intro h
    rcases lastAge_or_ageless header with ⟨v, hv⟩ | hno
    · rw [maxAge?_of_lastAge hf hv] at h
      exact ⟨v, hv, isSeconds_iff.mpr h⟩
    · rw [maxAge?_of_ageless hf hno] at h
      cases h
  · rintro ⟨v, hv, hn⟩
    rw [maxAge?_of_lastAge hf hv]
    exact isSeconds_iff.mp hn

theorem maxAge?_eq_none_iff (hf : ¬Forbidden header) :
    maxAge? header = none ↔ Ageless header ∨ ∃ v, LastAge header v ∧ ∀ n, ¬IsSeconds v n := by
  constructor
  · intro h
    rcases lastAge_or_ageless header with ⟨v, hv⟩ | hno
    · refine .inr ⟨v, hv, fun n hn => ?_⟩
      rw [(maxAge?_eq_some_iff hf).mpr ⟨v, hv, hn⟩] at h
      cases h
    · exact .inl hno
  · rintro (hno | ⟨v, hv, hunread⟩)
    · exact maxAge?_of_ageless hf hno
    · rw [maxAge?_of_lastAge hf hv, Option.eq_none_iff_forall_ne_some]
      intro n hn
      exact hunread n (isSeconds_iff.mpr hn)

theorem maxAge?_eq_zero_iff :
    maxAge? header = some 0 ↔ Forbidden header ∨ ∃ v, LastAge header v ∧ IsSeconds v 0 := by
  by_cases hf : Forbidden header
  · exact iff_of_true (maxAge?_of_forbidden hf) (.inl hf)
  · rw [maxAge?_eq_some_iff hf, or_iff_right hf]

end Header

end CacheControl

def Record.freshFor (r : Record) : Millis := r.expiresAt - r.fetchedAt

namespace CachePolicy

variable {p : CachePolicy} {d : Document} {r : Record} {hint hint' : Millis}

def Builds (p : CachePolicy) (d : Document) (r : Record) : Prop :=
  ∃ issuer generation now, Record.build issuer d p generation now = .ok r

theorem Builds.expiresAt (h : p.Builds d r) : r.expiresAt = r.fetchedAt + p.freshness d.maxAge := by
  obtain ⟨issuer, generation, now, h⟩ := h
  obtain ⟨-, -, rfl⟩ := Record.build_eq_ok_iff.mp h
  rfl

theorem Builds.freshFor (h : p.Builds d r) : r.freshFor = p.freshness d.maxAge := by
  rw [Record.freshFor, h.expiresAt, Nat.add_sub_cancel_left]

theorem Builds.isFresh_iff (h : p.Builds d r) (t : Millis) :
    r.isFresh t = true ↔ t < r.fetchedAt + r.freshFor := by
  rw [Record.isFresh, decide_eq_true_eq, h.expiresAt, h.freshFor]

theorem Builds.rehint (h : p.Builds d r) (hint : Option Millis) :
    ∃ r', p.Builds { d with maxAge := hint } r' := by
  obtain ⟨issuer, generation, now, h⟩ := h
  obtain ⟨hissuer, hkeys, -⟩ := Record.build_eq_ok_iff.mp h
  exact ⟨_, issuer, generation, now, Record.build_eq_ok_iff.mpr ⟨hissuer, hkeys, rfl⟩⟩

/-- The record is fresh for as long as the hint says, or up to the bound that the hint passes. -/
structure Follows (p : CachePolicy) (hint fresh : Millis) : Prop where
  short : hint ≤ p.minTtl → fresh = p.minTtl
  within : p.minTtl ≤ hint → hint ≤ p.maxTtl → fresh = hint
  long : p.maxTtl ≤ hint → fresh = p.maxTtl

theorem minTtl_le_freshness (hp : p.minTtl ≤ p.maxTtl) (hint : Millis) :
    p.minTtl ≤ p.freshness (some hint) :=
  Nat.le_min.mpr ⟨Nat.le_max_right _ _, hp⟩

theorem freshness_le_maxTtl (p : CachePolicy) (hint : Millis) : p.freshness (some hint) ≤ p.maxTtl :=
  Nat.min_le_right _ _

theorem follows_freshness (hp : p.minTtl ≤ p.maxTtl) (hint : Millis) :
    p.Follows hint (p.freshness (some hint)) where
  short h := by rw [freshness, Nat.max_eq_right h, Nat.min_eq_left hp]
  within hmin hmax := by rw [freshness, Nat.max_eq_left hmin, Nat.min_eq_left hmax]
  long h := by
    have hmax : p.maxTtl ≤ max hint p.minTtl := Nat.le_trans h (Nat.le_max_left _ _)
    rw [freshness, Nat.min_eq_right hmax]

theorem freshness_mono (p : CachePolicy) (h : hint ≤ hint') :
    p.freshness (some hint) ≤ p.freshness (some hint') := by
  have hmax : max hint p.minTtl ≤ max hint' p.minTtl := max_le_max_right _ h
  exact min_le_min_right _ hmax

end CachePolicy

namespace CacheControl

/-- What a header value says of how long keys may be kept, and how long a record is fresh that is built with
it. The header does not decide whether there is a record. -/
structure Bounded (p : CachePolicy) (header : Text) : Prop where
  zero : maxAge? header = some 0 ↔ Forbidden header ∨ ∃ v, LastAge header v ∧ IsSeconds v 0
  seconds : ¬Forbidden header → ∀ n, maxAge? header = some n ↔ ∃ v, LastAge header v ∧ IsSeconds v n
  nothing : ¬Forbidden header →
    (maxAge? header = none ↔ Ageless header ∨ ∃ v, LastAge header v ∧ ∀ n, ¬IsSeconds v n)
  built : ∀ d r, p.Builds d r → ∃ r', p.Builds { d with maxAge := (maxAge? header).map Millis.ofSeconds } r'
  fresh : ∀ d r, p.Builds d r → ∀ t, r.isFresh t = true ↔ t < r.fetchedAt + r.freshFor
  hinted : ∀ d r n, p.Builds d r → d.maxAge = (maxAge? header).map Millis.ofSeconds →
    maxAge? header = some n →
      p.minTtl ≤ r.freshFor ∧ r.freshFor ≤ p.maxTtl ∧ p.Follows (.ofSeconds n) r.freshFor
  unhinted : ∀ d r, p.Builds d r → d.maxAge = (maxAge? header).map Millis.ofSeconds →
    maxAge? header = none → r.freshFor = p.defaultTtl
  grows : ∀ d d' r r' hint hint', p.Builds d r → p.Builds d' r' → d.maxAge = some hint →
    d'.maxAge = some hint' → hint ≤ hint' → r.freshFor ≤ r'.freshFor

/-- Of all that a header value says one hint is left at most, which cannot lead out of the bounds. -/
theorem bounded {p : CachePolicy} (hp : p.minTtl ≤ p.maxTtl) (header : Text) : Bounded p header where
  zero := maxAge?_eq_zero_iff
  seconds hf _ := maxAge?_eq_some_iff hf
  nothing := maxAge?_eq_none_iff
  built _ _ h := h.rehint _
  fresh _ _ h := h.isFresh_iff
  hinted d r n h hd hn := by
    rw [hn, Option.map_some] at hd
    rw [h.freshFor, hd]
    exact ⟨p.minTtl_le_freshness hp _, p.freshness_le_maxTtl _, p.follows_freshness hp _⟩
  unhinted d r h hd hn := by
    rw [hn, Option.map_none] at hd
    rw [h.freshFor, hd, CachePolicy.freshness]
  grows d d' r r' hint hint' h h' hd hd' hle := by
    rw [h.freshFor, h'.freshFor, hd, hd']
    exact p.freshness_mono hle

def repeatedAge : Text := "public, max-age=60,\t MAX-AGE=\"+7200\" "

theorem bounded_repeatedAge :
    (CachePolicy.ofSettings {}).minTtl ≤ (CachePolicy.ofSettings {}).maxTtl ∧
      (∃ v, LastAge repeatedAge v ∧ IsSeconds v 7200) ∧
        ∃ d r, CachePolicy.Builds (.ofSettings {}) d r ∧ d.maxAge = some 7200000 ∧ r.freshFor = 7200000 := by
  have hp : (CachePolicy.ofSettings {}).minTtl ≤ (CachePolicy.ofSettings {}).maxTtl := by decide
  have h := bounded hp repeatedAge
  have hage : maxAge? repeatedAge = some 7200 := by decide
  have hbuilt : ∃ r, CachePolicy.Builds (.ofSettings {}) (.listing [] [.edwardsKey (some "k")]) r :=
    ⟨_, "https://idp.example/abc", 1, 0, rfl⟩
  obtain ⟨r, hr⟩ := hbuilt
  obtain ⟨r', hr'⟩ := h.built _ r hr
  have hfollowed := (h.hinted _ r' 7200 hr' rfl hage).2.2.within (by decide) (by decide)
  exact ⟨hp, (h.seconds (by decide) 7200).mp hage, _, r', hr', by rw [hage]; rfl, hfollowed⟩

example : maxAge? "max-age=600, max-age=18446744073709551616" = none := by decide

end CacheControl

end BearerGate
