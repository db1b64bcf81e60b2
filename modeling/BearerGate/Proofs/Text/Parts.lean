import BearerGate.Text.Basic
import Mathlib.Data.List.DropRight
import Mathlib.Data.List.Infix

namespace BearerGate.Text

theorem after?_eq_some_iff {start t rest : Text} : after? start t = some rest ↔ t = start ++ rest := by
  unfold after?
  constructor
  · intro h
    split at h
    · rename_i hp
      obtain ⟨u, rfl⟩ := List.isPrefixOf_iff_prefix.mp hp
      simpa [eq_comm] using h
    · simp at h
  · rintro rfl
    rw [if_pos (List.isPrefixOf_iff_prefix.mpr (List.prefix_append _ _)), List.drop_left]

theorem after?_eq_none_iff {start t : Text} : after? start t = none ↔ ¬start <+: t := by
  unfold after?
  rw [← List.isPrefixOf_iff_prefix]
  split <;> simp_all

theorem before?_append (final s : Text) : before? final (s ++ final) = some s := by
  rw [before?, if_pos (List.isSuffixOf_iff_suffix.mpr (List.suffix_append _ _)), List.length_append,
    Nat.add_sub_cancel, List.take_left]

theorem dropEndWhile_eq_rdropWhile (p : Char → Bool) (t : Text) :
    dropEndWhile p t = t.rdropWhile p := rfl

/-- A text without the characters of a kind at its ends. -/
structure Stripped (p : Char → Bool) (t u : Text) : Prop where
  around : ∃ before after, t = before ++ u ++ after ∧ ∀ c ∈ before ++ after, p c = true
  first : ∀ c ∈ u.head?, p c = false
  last : ∀ c ∈ u.getLast?, p c = false

section Stripped

variable {p : Char → Bool} {t u : Text}

theorem dropWhile_append_eq {before : Text} (hbefore : ∀ c ∈ before, p c = true)
    (h : ∀ c ∈ t.head?, p c = false) : (before ++ t).dropWhile p = t := by
  rw [List.dropWhile_append_of_pos hbefore]
  cases t with
  | nil => rfl
  | cons c r => exact List.dropWhile_cons_of_neg (Bool.eq_false_iff.mp (h c rfl))

theorem dropEndWhile_append_eq {after : Text} (hafter : ∀ c ∈ after, p c = true)
    (h : ∀ c ∈ t.getLast?, p c = false) : dropEndWhile p (t ++ after) = t := by
  have hrest (c) (hc : c ∈ after.reverse) := hafter c (List.mem_reverse.mp hc)
  rw [dropEndWhile, List.reverse_append, dropWhile_append_eq hrest, List.reverse_reverse]
  rwa [List.head?_reverse]

theorem Stripped.eq (h : Stripped p t u) : dropEndWhile p (t.dropWhile p) = u := by
  obtain ⟨⟨before, after, rfl, hp⟩, hfirst, hlast⟩ := h
  obtain ⟨hbefore, hafter⟩ := List.forall_mem_append.mp hp
  cases u with
  | nil =>
      rw [List.append_nil, List.dropWhile_eq_nil_iff.mpr hp]
      rfl
  | cons c r =>
      have hrest : (before ++ (c :: r ++ after)).dropWhile p = c :: r ++ after := dropWhile_append_eq hbefore hfirst
      rw [List.append_assoc, hrest, dropEndWhile_append_eq hafter hlast]

theorem stripped (p : Char → Bool) (t : Text) : Stripped p t (dropEndWhile p (t.dropWhile p)) := by
  rw [dropEndWhile_eq_rdropWhile]
  constructor
  · refine ⟨t.takeWhile p, (t.dropWhile p).rtakeWhile p, ?_, ?_⟩
    · rw [List.append_assoc, List.rdropWhile_append_rtakeWhile, List.takeWhile_append_dropWhile]
    · exact List.forall_mem_append.mpr ⟨fun c => List.mem_takeWhile_imp, fun c => List.mem_rtakeWhile_imp⟩
  · intro c hc
    have hfirst := List.head?_dropWhile_not p t
    rw [← List.rdropWhile_append_rtakeWhile (p := p) (l := t.dropWhile p), List.head?_append, hc] at hfirst
    exact hfirst
  · intro c hc
    obtain ⟨hne, rfl⟩ := List.mem_getLast?_eq_getLast hc
    exact Bool.eq_false_iff.mpr (List.rdropWhile_last_not p _ hne)

theorem stripped_iff : Stripped p t u ↔ dropEndWhile p (t.dropWhile p) = u := by
  refine ⟨Stripped.eq, ?_⟩
  rintro rfl
  exact stripped p t

end Stripped

/-- A text without white space. -/
def IsSolid (t : Text) : Prop := ∀ c ∈ t, isBlank c = false

instance (t : Text) : Decidable t.IsSolid := List.decidableBAll _ _

theorem IsSolid.append {s t : Text} (hs : s.IsSolid) (ht : t.IsSolid) : IsSolid (s ++ t) := by
  intro c hc
  rcases List.mem_append.mp hc with h | h
  · exact hs c h
  · exact ht c h

theorem IsSolid.trim_eq {t : Text} (h : t.IsSolid) : trim t = t := by
  have hstart : trimStart t = t := by
    cases t with
    | nil => rfl
    | cons c r => simp [trimStart, h c (by simp)]
  rw [trim, hstart, trimEnd, dropEndWhile_eq_rdropWhile, List.rdropWhile_eq_self_iff]
  intro hl
  simp [h _ (List.getLast_mem hl)]

theorem mem_of_mem_trim {t : Text} {c : Char} (h : c ∈ trim t) : c ∈ t :=
  (List.dropWhile_suffix isBlank).subset ((List.rdropWhile_prefix isBlank _).subset h)

theorem isBlank_of_trim_eq_nil {t : Text} (h : trim t = []) {c : Char} (hc : c ∈ t) : isBlank c = true := by
  rw [trim, trimEnd, dropEndWhile_eq_rdropWhile, List.rdropWhile_eq_nil_iff] at h
  by_contra hblank
  have hmem : c ∈ trimStart t := by
    rw [← List.takeWhile_append_dropWhile (p := isBlank) (l := t)] at hc
    rcases List.mem_append.mp hc with hc | hc
    · exact absurd (List.mem_takeWhile_imp hc) hblank
    · exact hc
  exact hblank (h c hmem)

theorem trimStart_of_isPrefix {s t : Text} (h : s <+: trimStart t) : trimStart s = s := by
  rw [trimStart, List.dropWhile_eq_self_iff]
  intro hl hblank
  have hpos : 0 < (trimStart t).length := hl.trans_le h.length_le
  rw [h.getElem hl] at hblank
  exact List.dropWhile_get_zero_not _ t hpos hblank

theorem trim_trim (t : Text) : trim (trim t) = trim t := by
  have hstart : trimStart (trim t) = trim t := trimStart_of_isPrefix (List.rdropWhile_prefix _ _)
  have hend : trimEnd (trim t) = trim t := List.rdropWhile_idempotent _ _
  rw [trim, hstart, hend]

theorem trimStart_append {s u : Text} (hs : trimStart s = s) (hu : trimStart u = u) :
    trimStart (s ++ u) = s ++ u := by
  rw [trimStart] at hs hu ⊢
  rw [List.dropWhile_append, hs, hu]
  cases s with
  | nil => rfl
  | cons c r => rfl

theorem cutAt?_cons (sep : Text) (c : Char) (r : Text) :
    cutAt? sep (c :: r) = match after? sep (c :: r) with
      | some rest => some ([], rest)
      | none => (cutAt? sep r).map fun p => (c :: p.1, p.2) := rfl

theorem eq_of_cutAt?_eq_some {sep t a b : Text} (h : cutAt? sep t = some (a, b)) :
    t = a ++ sep ++ b := by
  induction t generalizing a with
  | nil =>
      simp only [cutAt?] at h
      split at h <;> simp_all
  | cons c r ih =>
      rw [cutAt?_cons] at h
      split at h
      · rename_i rest hr
        obtain ⟨rfl, rfl⟩ : [] = a ∧ rest = b := by simpa using h
        simpa using after?_eq_some_iff.mp hr
      · obtain ⟨⟨a', b'⟩, ha, he⟩ := Option.map_eq_some_iff.mp h
        obtain ⟨rfl, rfl⟩ : c :: a' = a ∧ b' = b := by simpa using he
        simp [ih ha]

theorem cutAt?_append {sep t a b : Text} (h : cutAt? sep t = some (a, b)) (hs : sep ≠ []) (u : Text) :
    cutAt? sep (t ++ u) = some (a, b ++ u) := by
  induction t generalizing a with
  | nil => simp [cutAt?, hs] at h
  | cons c r ih =>
      rw [cutAt?_cons] at h
      split at h
      · rename_i rest hr
        obtain ⟨rfl, rfl⟩ : [] = a ∧ rest = b := by simpa using h
        have hu : after? sep (c :: (r ++ u)) = some (rest ++ u) := by
          rw [after?_eq_some_iff] at hr ⊢
          rw [← List.append_assoc, ← hr, List.cons_append]
        rw [List.cons_append, cutAt?_cons, hu]
      · rename_i hr
        obtain ⟨⟨a', b'⟩, ha, he⟩ := Option.map_eq_some_iff.mp h
        obtain ⟨rfl, rfl⟩ : c :: a' = a ∧ b' = b := by simpa using he
        -- the occurrence that follows leaves no room for one that reaches past the end
        have hlen : sep.length ≤ (c :: r).length := by
          have := congrArg List.length (eq_of_cutAt?_eq_some ha)
          simp only [List.length_append, List.length_cons] at this ⊢
          omega
        have hu : after? sep (c :: r ++ u) = none := by
          rw [after?_eq_none_iff] at hr ⊢
          intro hp
          exact hr (List.prefix_of_prefix_length_le hp (List.prefix_append _ _) hlen)
        rw [List.cons_append] at hu ⊢
        rw [cutAt?_cons, hu]
        simp [ih ha]

theorem cutAt?_eq_none_iff {sep t : Text} (hs : sep ≠ []) : cutAt? sep t = none ↔ ¬sep <:+: t := by
  induction t with
  | nil => simp [cutAt?, hs]
  | cons c r ih =>
      rw [cutAt?_cons, List.infix_cons_iff, not_or, ← ih, ← after?_eq_none_iff]
      cases after? sep (c :: r) <;> simp

theorem cutAt?_append_sep {sep x : Text} (h : ¬sep <:+: x ++ sep.dropLast) (y : Text) :
    cutAt? sep (x ++ sep ++ y) = some (x, y) := by
  have hs : sep ≠ [] := by
    rintro rfl
    exact h List.nil_infix
  induction x with
  | nil =>
      obtain ⟨c, r, rfl⟩ := List.exists_cons_of_ne_nil hs
      rw [List.nil_append, List.cons_append, cutAt?_cons, ← List.cons_append,
        after?_eq_some_iff.mpr rfl]
  | cons c r ih =>
      have hnone : after? sep (c :: (r ++ sep ++ y)) = none := by
        rw [after?_eq_none_iff]
        intro hp
        -- What begins with the separator has room for it before the end of the separator that follows.
        have hx : c :: r ++ sep.dropLast <+: c :: (r ++ sep ++ y) := by
          rw [List.append_assoc, ← List.cons_append]
          exact (List.prefix_append_right_inj _).mpr ((List.dropLast_prefix sep).trans (List.prefix_append _ _))
        have hlen : sep.length ≤ (c :: r ++ sep.dropLast).length := by
          simp only [List.cons_append, List.length_cons, List.length_append, List.length_dropLast]
          omega
        exact h (List.prefix_of_prefix_length_le hp hx hlen).isInfix
      rw [List.cons_append, List.cons_append, cutAt?_cons, hnone,
        ih fun hr => h (hr.trans (List.suffix_cons _ _).isInfix)]
      rfl

theorem mem_splitOn {sep : Char} {s t : Text} (h : s ∈ t.splitOn sep) : sep ∉ s ∧ s ⊆ t := by
  induction t generalizing s with
  | nil =>
      rw [List.splitOn_nil, List.mem_singleton] at h
      subst h
      exact ⟨List.not_mem_nil, List.nil_subset _⟩
  | cons c t ih =>
      rw [List.splitOn_cons_eq_if_modifyHead] at h
      split at h
      · rcases List.mem_cons.mp h with rfl | h
        · exact ⟨List.not_mem_nil, List.nil_subset _⟩
        · exact (ih h).imp_right (List.subset_cons_of_subset c)
      · rename_i hsep
        obtain ⟨s', rest, hsplit⟩ := List.exists_cons_of_ne_nil (List.splitOn_ne_nil sep t)
        rw [hsplit] at h ih
        rcases List.mem_cons.mp h with rfl | h
        · obtain ⟨hs', hsub⟩ := ih List.mem_cons_self
          refine ⟨?_, List.cons_subset_cons c hsub⟩
          rw [List.mem_cons, not_or]
          exact ⟨fun he => hsep (beq_iff_eq.mpr he.symm), hs'⟩
        · exact (ih (List.mem_cons_of_mem _ h)).imp_right (List.subset_cons_of_subset c)

theorem mem_intercalate {sep c : Char} {parts : List Text} (h : c ∈ [sep].intercalate parts) :
    c = sep ∨ ∃ s ∈ parts, c ∈ s := by
  induction parts with
  | nil => cases h
  | cons s parts ih =>
      cases parts with
      | nil => exact .inr ⟨s, List.mem_cons_self, by simpa using h⟩
      | cons s' parts =>
          rw [List.intercalate_cons_cons, List.mem_append, List.mem_append, List.mem_singleton] at h
          rcases h with (h | h) | h
          · exact .inr ⟨s, List.mem_cons_self, h⟩
          · exact .inl h
          · exact (ih h).imp_right fun ⟨t, ht, hc⟩ => ⟨t, List.mem_cons_of_mem s ht, hc⟩

end BearerGate.Text

namespace BearerGate

theorem exists_last {α : Type} {p : α → Prop} {l : List α} (h : ∃ x ∈ l, p x) :
    ∃ before x after, l = before ++ x :: after ∧ p x ∧ ∀ y ∈ after, ¬p y := by
  induction l with
  | nil =>
      obtain ⟨x, hx, -⟩ := h
      cases hx
  | cons a l ih =>
      by_cases hl : ∃ x ∈ l, p x
      · obtain ⟨before, x, after, rfl, hx, hafter⟩ := ih hl
        exact ⟨a :: before, x, after, rfl, hx, hafter⟩
      · obtain ⟨x, hx, hpx⟩ := h
        have hxa : x = a := (List.mem_cons.mp hx).resolve_right fun hmem => hl ⟨x, hmem, hpx⟩
        exact ⟨[], a, l, rfl, hxa ▸ hpx, fun y hy hpy => hl ⟨y, hy, hpy⟩⟩

end BearerGate
