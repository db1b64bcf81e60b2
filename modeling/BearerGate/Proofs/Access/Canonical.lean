import BearerGate.Access.Guard
import BearerGate.Proofs.Text.Parts
import BearerGate.Proofs.Text.Percent

namespace BearerGate.Path

def IsOrdinary (s : Text) : Prop := s ≠ [] ∧ s ≠ ['.'] ∧ s ≠ ['.', '.']

instance (s : Text) : Decidable (IsOrdinary s) :=
  inferInstanceAs (Decidable (_ ∧ _ ∧ _))

/-- Up to some segment there are more steps up than down, whatever comes after it. -/
def Climbs (segments : List Text) : Prop :=
  ∃ first, first <+: segments ∧ first.countP (IsOrdinary ·) < first.count ['.', '.']

def IsPlain (t : Text) : Prop := ∀ c ∈ t, c ∉ ['%', '\\', ';', '\x00']

instance (t : Text) : Decidable (IsPlain t) := List.decidableBAll _ _

/-- A path without detours: ordinary segments with a slash before each. -/
structure IsCanonical (path : Text) : Prop where
  joined : ∃ segments, (∀ s ∈ segments, IsOrdinary s ∧ '/' ∉ s) ∧ path = '/' :: ['/'].intercalate segments
  plain : IsPlain path

theorem any_isForbidden_iff {t : Text} : t.any isForbidden = true ↔ ¬IsPlain t := by
  have hchar (c : Char) : isForbidden c = true ↔ c ∈ ['%', '\\', ';', '\x00'] := by
    simp [isForbidden, or_assoc]
  simp only [IsPlain, List.any_eq_true, hchar, not_forall, not_not, exists_prop]

section Walk

variable {kept rest : List Text} {s : Text}

theorem resolve?_stay (h : s = [] ∨ s = ['.']) : resolve? kept (s :: rest) = resolve? kept rest := by
  rw [resolve?.eq_def]
  exact if_pos h

theorem resolve?_root : resolve? [] (['.', '.'] :: rest) = none := rfl

theorem resolve?_up : resolve? (s :: kept) (['.', '.'] :: rest) = resolve? kept rest := rfl

theorem resolve?_down (h : IsOrdinary s) : resolve? kept (s :: rest) = resolve? (s :: kept) rest := by
  obtain ⟨hempty, hdot, hup⟩ := h
  have hstay : ¬(s = [] ∨ s = ['.']) := not_or.mpr ⟨hempty, hdot⟩
  rw [resolve?.eq_def]
  simp only [hstay, hup, if_false]

theorem stay_or_up_or_ordinary (s : Text) : (s = [] ∨ s = ['.']) ∨ s = ['.', '.'] ∨ IsOrdinary s := by
  simp only [IsOrdinary]
  tauto

theorem resolve?_append (kept first rest : List Text) :
    resolve? kept (first ++ rest) = (resolve? kept first).bind fun out => resolve? out.reverse rest := by
  induction first generalizing kept with
  | nil => simp [resolve?]
  | cons s first ih =>
      rw [List.cons_append]
      rcases stay_or_up_or_ordinary s with h | rfl | h
      · rw [resolve?_stay h, resolve?_stay h, ih]
      · cases kept with
        | nil => rfl
        | cons top kept => rw [resolve?_up, resolve?_up, ih]
      · rw [resolve?_down h, resolve?_down h, ih]

theorem resolve?_of_ordinary {segments : List Text} (h : ∀ s ∈ segments, IsOrdinary s) :
    resolve? kept segments = some (kept.reverse ++ segments) := by
  induction segments generalizing kept with
  | nil => simp [resolve?]
  | cons s segments ih =>
      rw [List.forall_mem_cons] at h
      rw [resolve?_down h.1, ih h.2, List.reverse_cons, List.append_assoc, List.singleton_append]

theorem mem_of_resolve? {segments out : List Text} (h : resolve? kept segments = some out) :
    ∀ s ∈ out, s ∈ kept ∨ s ∈ segments ∧ IsOrdinary s := by
  induction segments generalizing kept with
  | nil =>
      obtain rfl := Option.some.inj h
      exact fun s hs => .inl (List.mem_reverse.mp hs)
  | cons t segments ih =>
      have hlater {s : Text} (hs : s ∈ segments ∧ IsOrdinary s) : s ∈ t :: segments ∧ IsOrdinary s :=
        hs.imp_left (List.mem_cons_of_mem t)
      rcases stay_or_up_or_ordinary t with ht | rfl | ht
      · rw [resolve?_stay ht] at h
        exact fun s hs => (ih h s hs).imp_right hlater
      · cases kept with
        | nil => cases h
        | cons top kept =>
            rw [resolve?_up] at h
            exact fun s hs => (ih h s hs).imp (List.mem_cons_of_mem top) hlater
      · rw [resolve?_down ht] at h
        intro s hs
        rcases ih h s hs with hmem | hmem
        · rcases List.mem_cons.mp hmem with rfl | hmem
          · exact .inr ⟨List.mem_cons_self, ht⟩
          · exact .inl hmem
        · exact .inr (hlater hmem)

/-- The walk fails where the steps up exceed what is kept and the steps down before them. -/
theorem resolve?_eq_none_iff {segments : List Text} :
    resolve? kept segments = none ↔
      ∃ first, first <+: segments ∧ kept.length + first.countP (IsOrdinary ·) < first.count ['.', '.'] := by
  induction segments generalizing kept with
  | nil => simp [resolve?]
  | cons s segments ih =>
      -- Nothing climbs before the first segment, so that it is in every prefix that counts.
      have hcons : (∃ first, first <+: s :: segments ∧
            kept.length + first.countP (IsOrdinary ·) < first.count ['.', '.']) ↔
          ∃ first, first <+: segments ∧
            kept.length + (s :: first).countP (IsOrdinary ·) < (s :: first).count ['.', '.'] := by
        simp only [List.prefix_cons_iff]
        constructor
        · rintro ⟨_, rfl | ⟨first, rfl, hfirst⟩, hlt⟩
          · simp at hlt
          · exact ⟨first, hfirst, hlt⟩
        · rintro ⟨first, hfirst, hlt⟩
          exact ⟨_, .inr ⟨first, rfl, hfirst⟩, hlt⟩
      rw [hcons]
      rcases stay_or_up_or_ordinary s with hs | rfl | hs
      · have hord : ¬IsOrdinary s := fun h => hs.elim h.1 h.2.1
        have hup : s ≠ ['.', '.'] := by
          rcases hs with rfl | rfl
          all_goals decide
        rw [resolve?_stay hs, ih]
        simp only [List.countP_cons, List.count_cons_of_ne hup, hord, decide_false, Bool.false_eq_true,
          if_false, Nat.add_zero]
      · have hord : ¬IsOrdinary ['.', '.'] := by decide
        simp only [List.countP_cons, List.count_cons_self, hord, decide_false, Bool.false_eq_true, if_false,
          Nat.add_zero]
        cases kept with
        | nil => simpa [resolve?_root] using ⟨[], List.nil_prefix, by simp⟩
        | cons top kept =>
            rw [resolve?_up, ih]
            simp only [List.length_cons, Nat.add_right_comm _ 1, Nat.add_lt_add_iff_right]
      · rw [resolve?_down hs, ih]
        simp only [List.countP_cons, List.count_cons_of_ne hs.2.2, hs, decide_true, if_true, List.length_cons,
          Nat.add_right_comm _ 1, Nat.add_assoc]

theorem resolve?_root_eq_none_iff {segments : List Text} : resolve? [] segments = none ↔ Climbs segments := by
  rw [resolve?_eq_none_iff, Climbs]
  simp only [List.length_nil, Nat.zero_add]

instance (segments : List Text) : Decidable (Climbs segments) :=
  decidable_of_iff _ resolve?_root_eq_none_iff

end Walk

def segments? (raw : Text) : Option (List Text) :=
  ((Utf8.decode? (Percent.decode raw)).filter fun t => !t.any isForbidden).map (·.splitOn '/')

theorem normalize?_eq (raw : Text) : normalize? raw = ((segments? raw).bind (resolve? [])).map render := by
  rw [normalize?, segments?]
  cases Utf8.decode? (Percent.decode raw) with
  | none => rfl
  | some t =>
      rw [Option.bind_eq_bind, Option.bind_some, Option.filter_some]
      cases t.any isForbidden with
      | true => rfl
      | false => rfl

theorem segments?_eq_some_iff {raw : Text} {segments : List Text} :
    segments? raw = some segments ↔
      ∃ t, Percent.decode raw = Utf8.encode t ∧ IsPlain t ∧ t.splitOn '/' = segments := by
  simp only [segments?, Option.map_eq_some_iff, Option.filter_eq_some_iff, Utf8.decode?_eq_some_iff,
    Bool.not_eq_true', ← Bool.not_eq_true, any_isForbidden_iff, not_not, and_assoc]

theorem IsCanonical.normalize?_eq {path : Text} (h : IsCanonical path) : normalize? path = some path := by
  obtain ⟨⟨segments, hseg, rfl⟩, hplain⟩ := h
  have hdecode : Percent.decode ('/' :: ['/'].intercalate segments) =
      Utf8.encode ('/' :: ['/'].intercalate segments) :=
    Percent.decode_of_not_mem fun hmem => hplain _ hmem List.mem_cons_self
  have hsplit : ('/' :: ['/'].intercalate segments).splitOn '/' =
      [] :: (['/'].intercalate segments).splitOn '/' := by
    rw [List.splitOn_cons_eq_if_modifyHead, if_pos (by rfl)]
  rw [Path.normalize?_eq, segments?_eq_some_iff.mpr ⟨_, hdecode, hplain, hsplit⟩, Option.bind_some,
    resolve?_stay (.inl rfl)]
  by_cases hnil : segments = []
  · subst hnil
    rfl
  · rw [List.splitOn_intercalate '/' (fun s hs => (hseg s hs).2) hnil,
      resolve?_of_ordinary fun s hs => (hseg s hs).1]
    rfl

theorem isCanonical_of_normalize? {raw path : Text} (h : normalize? raw = some path) : IsCanonical path := by
  rw [normalize?_eq, Option.map_eq_some_iff] at h
  obtain ⟨out, hout, rfl⟩ := h
  obtain ⟨segments, hsegments, hwalk⟩ := Option.bind_eq_some_iff.mp hout
  obtain ⟨t, -, hplain, rfl⟩ := segments?_eq_some_iff.mp hsegments
  have hmem (s) (hs : s ∈ out) : s ∈ t.splitOn '/' ∧ IsOrdinary s :=
    (mem_of_resolve? hwalk s hs).resolve_left List.not_mem_nil
  refine ⟨⟨out, fun s hs => ⟨(hmem s hs).2, (Text.mem_splitOn (hmem s hs).1).1⟩, rfl⟩, fun c hc => ?_⟩
  have hslash : '/' ∉ ['%', '\\', ';', '\x00'] := by decide
  rcases List.mem_cons.mp hc with rfl | hc
  · exact hslash
  · rcases Text.mem_intercalate hc with rfl | ⟨s, hs, hcs⟩
    · exact hslash
    · exact hplain c ((Text.mem_splitOn (hmem s hs).1).2 hcs)

theorem normalize?_of_decode {raw t : Text} (h : Percent.decode raw = Utf8.encode t) :
    normalize? raw = if t.any isForbidden then none else (resolve? [] (t.splitOn '/')).map render := by
  rw [normalize?, Utf8.decode?_eq_some_iff.mpr h]
  rfl

theorem normalize?_eq_none_iff {raw t : Text} (h : Percent.decode raw = Utf8.encode t) :
    normalize? raw = none ↔ ¬IsPlain t ∨ Climbs (t.splitOn '/') := by
  rw [normalize?_of_decode h, ← any_isForbidden_iff, ← resolve?_root_eq_none_iff]
  cases t.any isForbidden with
  | true => simp
  | false => simp

/-- Every path that has a normal form has a canonical one, and a path has none exactly if it cannot be
read, has a character that routers differ on, or climbs above the root on its way. -/
theorem normalize?_canonical (raw : Text) :
    (∀ path, normalize? raw = some path → IsCanonical path ∧ normalize? path = some path) ∧
      (normalize? raw = none ↔
        (∀ t, Percent.decode raw ≠ Utf8.encode t) ∨
          ∃ t, Percent.decode raw = Utf8.encode t ∧ (¬IsPlain t ∨ Climbs (t.splitOn '/'))) := by
  constructor
  · intro path h
    have hcanonical := isCanonical_of_normalize? h
    exact ⟨hcanonical, hcanonical.normalize?_eq⟩
  · by_cases hread : ∃ t, Percent.decode raw = Utf8.encode t
    · obtain ⟨t, ht⟩ := hread
      rw [normalize?_eq_none_iff ht]
      constructor
      · exact fun h => .inr ⟨t, ht, h⟩
      · rintro (hnot | ⟨t', ht', h⟩)
        · exact absurd ht (hnot t)
        · obtain rfl : t = t' := Utf8.encode_inj (ht.symm.trans ht')
          exact h
    · rw [not_exists] at hread
      have hdecode := Utf8.decode?_eq_none_iff.mpr hread
      exact iff_of_true (by rw [normalize?, hdecode]; rfl) (.inl hread)

theorem normalize?_canonical_lifted :
    normalize? "/file//v1/%2e%2E/./a" = some "/file/a".toList ∧ IsCanonical "/file/a" ∧
      normalize? "/file/../../file" = none := by
  have hlifted : normalize? "/file//v1/%2e%2E/./a" = some "/file/a".toList := by
    decide +kernel
  have hclimbs : Percent.decode "/file/../../file" = Utf8.encode "/file/../../file" ∧
      Climbs (List.splitOn '/' "/file/../../file".toList) := by
    decide +kernel
  exact ⟨hlifted, ((normalize?_canonical _).1 _ hlifted).1,
    (normalize?_canonical _).2.mpr (.inr ⟨_, hclimbs.1, .inr hclimbs.2⟩)⟩

end BearerGate.Path
