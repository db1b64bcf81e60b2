import BearerGate.Proofs.Config.Honoured

namespace BearerGate

namespace Text

theorem trimEnd_eq_of_trim {t : Text} (h : trim t = t) : trimEnd t = t := by
  rw [← h]
  exact List.rdropWhile_idempotent _ _

theorem trim_enclosed {before t after : Text} (hblank : ∀ c ∈ before ++ after, isBlank c = true)
    (h : trim t = t) : trim (before ++ t ++ after) = t := by
  obtain ⟨-, hfirst, hlast⟩ : Stripped isBlank t t := stripped_iff.mpr h
  exact stripped_iff.mp ⟨⟨before, after, rfl, hblank⟩, hfirst, hlast⟩

theorem trimEnd_append {s t : Text} (h : trimEnd t = t) (hne : t ≠ []) : trimEnd (s ++ t) = s ++ t := by
  rw [trimEnd, dropEndWhile_eq_rdropWhile, List.rdropWhile_eq_self_iff] at h ⊢
  intro hl
  rw [List.getLast_append_of_ne_nil _ hne]
  exact h hne

theorem mem_dropWhile {p : Char → Bool} {c : Char} {t : Text} (hc : c ∈ t) (hp : p c = false) :
    c ∈ t.dropWhile p := by
  rw [← List.takeWhile_append_dropWhile (p := p) (l := t), List.mem_append] at hc
  refine hc.resolve_left fun htake => ?_
  rw [List.mem_takeWhile_imp htake] at hp
  cases hp

theorem mem_trim {c : Char} {t : Text} (hc : isBlank c = false) : c ∈ trim t ↔ c ∈ t := by
  refine ⟨mem_of_mem_trim, fun h => ?_⟩
  exact List.mem_reverse.mpr (mem_dropWhile (List.mem_reverse.mpr (mem_dropWhile h hc)) hc)

theorem cut?_append {sep : Char} {a : Text} (h : sep ∉ a) (b : Text) : cut? sep (a ++ sep :: b) = some (a, b) := by
  induction a with
  | nil => simp [cut?]
  | cons c a ih =>
      rw [List.mem_cons, not_or] at h
      rw [List.cons_append, cut?, if_neg (Ne.symm h.1), ih h.2]
      rfl

theorem isPart_trim_iff {t : Text} : IsPart (trim t) ↔ t.IsPart := by
  rw [IsPart, IsPart, trim_trim, mem_trim rfl]

end Text

namespace Identity

variable {space name : Text} {d e : Identity}

theorem checkPart_eq_ok_iff {part : Part} {t u : Text} :
    checkPart part (Text.trim t) = .ok u ↔ t.IsPart ∧ u = Text.trim t := by
  constructor
  · intro h
    rw [checkPart] at h
    split at h
    · cases h
    split at h
    · cases h
    · rename_i hempty hcolon
      exact ⟨⟨hempty, mt (Text.mem_trim rfl).mpr hcolon⟩, (Except.ok.inj h).symm⟩
  · rintro ⟨h, rfl⟩
    exact checkPart_ok h

theorem make_eq_ok_iff :
    make space name = .ok d ↔ (space.IsPart ∧ name.IsPart) ∧ d = ⟨Text.trim space, Text.trim name⟩ := by
  constructor
  · intro h
    rw [make] at h
    cases hs : checkPart .space (Text.trim space) with
    | error f =>
        rw [hs] at h
        cases h
    | ok s =>
        cases hn : checkPart .name (Text.trim name) with
        | error f =>
            rw [hs, hn] at h
            cases h
        | ok n =>
            obtain ⟨hspace, rfl⟩ := checkPart_eq_ok_iff.mp hs
            obtain ⟨hname, rfl⟩ := checkPart_eq_ok_iff.mp hn
            rw [hs, hn] at h
            exact ⟨⟨hspace, hname⟩, (Except.ok.inj h).symm⟩
  · rintro ⟨⟨hspace, hname⟩, rfl⟩
    exact make_ok hspace hname

inductive Arises : Identity → Prop
  | made {space name : Text} {d : Identity} (h : make space name = .ok d) : Arises d
  | read {t : Text} {d : Identity} (h : parse t = .ok d) : Arises d

/-- The URN of the identity is read as the identity, with white space around it too. -/
def ReadsBack (d : Identity) : Prop :=
  ∀ before after : Text, (∀ c ∈ before ++ after, Text.isBlank c = true) →
    parse (before ++ d.urn ++ after) = .ok d

theorem Arises.exists_make (h : d.Arises) : ∃ space name, make space name = .ok d := by
  cases h with
  | made h => exact ⟨_, _, h⟩
  | read h =>
      rw [parse] at h
      split at h
      · cases h
      split at h
      · cases h
      · exact ⟨_, _, h⟩

theorem Arises.parts (h : d.Arises) :
    (d.space.IsPart ∧ Text.trim d.space = d.space) ∧ d.name.IsPart ∧ Text.trim d.name = d.name := by
  obtain ⟨space, name, h⟩ := h.exists_make
  obtain ⟨⟨hspace, hname⟩, rfl⟩ := make_eq_ok_iff.mp h
  exact ⟨⟨Text.isPart_trim_iff.mpr hspace, Text.trim_trim space⟩,
    Text.isPart_trim_iff.mpr hname, Text.trim_trim name⟩

theorem Arises.trim_urn (h : d.Arises) : Text.trim d.urn = d.urn := by
  obtain ⟨-, hname, htrim⟩ := h.parts
  have hne : d.name ≠ [] := fun he => hname.1 (by rw [he]; rfl)
  have hstart : Text.trimStart d.urn = d.urn := rfl
  have hurn : d.urn = (urnStart ++ d.space ++ [':']) ++ d.name := (List.append_assoc _ [':'] _).symm
  rw [Text.trim, hstart, hurn]
  exact Text.trimEnd_append (Text.trimEnd_eq_of_trim htrim) hne

theorem Arises.readsBack (h : d.Arises) : d.ReadsBack := by
  obtain ⟨⟨hspace, htrimSpace⟩, hname, htrimName⟩ := h.parts
  intro before after hblank
  have htrim := Text.trim_enclosed hblank h.trim_urn
  have hrest : Text.after? urnStart d.urn = some (d.space ++ ':' :: d.name) :=
    Text.after?_eq_some_iff.mpr (List.append_assoc _ _ _)
  rw [parse, htrim, hrest]
  simp only [Text.cut?_append hspace.2]
  rw [make_ok hspace hname, htrimSpace, htrimName]

/-- Identities are told apart by their URNs, each is read from its URN, and settings pass their checks exactly
when their service has an identity and the rest of them passes. -/
theorem round_trips (hd : d.Arises) (he : e.Arises) (s : Settings) :
    d.ReadsBack ∧ (d = e ↔ d.urn = e.urn) ∧
      (s.check = .ok () ↔ (∃ i, make s.service.space s.service.name = .ok i) ∧
        Settings.checkTrust s.trust = .ok () ∧ Settings.checkCache s.cache = .ok () ∧
          Settings.checkLogging s.logging = .ok ()) := by
  refine ⟨hd.readsBack, ⟨congrArg urn, fun h => ?_⟩, ?_⟩
  · have hread := he.readsBack [] [] (List.forall_mem_nil _)
    rw [← h, hd.readsBack [] [] (List.forall_mem_nil _)] at hread
    exact Except.ok.inj hread
  · rw [Settings.check, Settings.seq_eq_ok_iff, Settings.seq_eq_ok_iff, Settings.seq_eq_ok_iff,
      Settings.seq_eq_ok_iff, Settings.checkPart_eq_ok_iff, Settings.checkPart_eq_ok_iff]
    simp only [make_eq_ok_iff, exists_eq_right]
    rw [and_assoc]

theorem round_trips_spaced :
    make " p " "s\t" = .ok ⟨"p", "s"⟩ ∧ parse "\n urn:ads:p:s" = .ok ⟨"p", "s"⟩ ∧
      ((⟨"p", "s"⟩ : Identity) = ⟨"s", "p"⟩ ↔ urn ⟨"p", "s"⟩ = urn ⟨"s", "p"⟩) ∧
        ∃ s : Settings, s.service = ⟨" p ", "s\t"⟩ ∧ s.check = .ok () := by
  have hd : make " p " "s\t" = .ok ⟨"p", "s"⟩ := by decide
  have he : parse "urn:ads:s:p" = .ok ⟨"s", "p"⟩ := by decide
  let s : Settings :=
    { service := ⟨" p ", "s\t"⟩, trust := { issuers := [{ issuer := "https://idp.example", core := true }] } }
  obtain ⟨hreads, hurn, hcheck⟩ := round_trips (.made hd) (.read he) s
  have hblank : ∀ c ∈ ("\n ".toList ++ []), Text.isBlank c = true := List.all_eq_true.mp (by decide)
  exact ⟨hd, hreads "\n " [] hblank, hurn, s, rfl, hcheck.mpr ⟨⟨_, hd⟩, by decide, by decide, by decide⟩⟩

end Identity

end BearerGate
