import BearerGate.Config.Environment
import Mathlib.Data.List.Basic
import Mathlib.Data.List.TakeWhile

namespace BearerGate.Environment

def spelled : Text → Option Text → Text
  | name, none => '$' :: '{' :: (name ++ ['}'])
  | name, some default => '$' :: '{' :: (name ++ ':' :: '-' :: (default ++ ['}']))

structure Placeholder.IsWritten (p : Placeholder) : Prop where
  name : ∃ c r, p.name = c :: r ∧ startsName c = true ∧ ∀ x ∈ r, continuesName x = true
  default : ∀ d ∈ p.default, '}' ∉ d
  source : p.source = spelled p.name p.default

def Begins (t : Text) : Prop := ∃ p rest, Placeholder.IsWritten p ∧ t = p.source ++ rest

inductive Piece
  | copied (c : Char)
  | placeholder (p : Placeholder)

def Piece.source : Piece → Text
  | copied c => [c]
  | placeholder p => p.source

def Piece.filled (env : Environment) : Piece → Text
  | copied c => [c]
  | placeholder p =>
    match env.lookup p.name, p.default with
    | some value, _ => value
    | none, some default => default
    | none, none => p.source

/-- The pieces that a text is read in from left to right. A character is copied only where no placeholder
begins. -/
inductive IsScan : Text → List Piece → Prop
  | done : IsScan [] []
  | placeholder {p : Placeholder} {rest : Text} {pieces : List Piece} (hp : p.IsWritten) (h : IsScan rest pieces) :
      IsScan (p.source ++ rest) (.placeholder p :: pieces)
  | copied {c : Char} {r : Text} {pieces : List Piece} (hc : ¬Begins (c :: r)) (h : IsScan r pieces) :
      IsScan (c :: r) (.copied c :: pieces)

def Match.IsIn (t : Text) (m : Match) : Prop :=
  ∃ p : Placeholder, p.IsWritten ∧ slice t m.start m.stop = p.source ∧ p.name = m.name ∧ p.default = m.default

/-- The successive matches from a position on: each is the first that begins behind the one before. -/
inductive Finds (t : Text) : Nat → List Match → Prop
  | done {last : Nat} (h : ∀ k ≥ last, ¬Begins (t.drop k)) : Finds t last []
  | next {last : Nat} {m : Match} {ms : List Match} (hle : last ≤ m.start) (hm : m.IsIn t)
      (hfirst : ∀ k ≥ last, k < m.start → ¬Begins (t.drop k)) (h : Finds t m.stop ms) : Finds t last (m :: ms)

section Placeholders

variable {t rest : Text} {p : Placeholder}

theorem placeholder?_source (h : p.IsWritten) (rest : Text) : placeholder? (p.source ++ rest) = some (p, rest) := by
  obtain ⟨⟨c, r, hname, hc, hr⟩, hdefault, hsource⟩ := h
  obtain ⟨name, default, source⟩ := p
  simp only at hname hdefault hsource
  subst hname hsource
  -- neither what opens a default nor the closing brace continues a name
  have hcolon : continuesName ':' = false := rfl
  have hbrace : continuesName '}' = false := rfl
  cases default with
  | none =>
      simp [spelled, placeholder?, hc, List.takeWhile_append_of_pos hr, List.dropWhile_append_of_pos hr, hbrace]
  | some d =>
      have hd : ∀ x ∈ d, (!decide (x = '}')) = true := by
        intro x hx
        rw [Bool.not_eq_true', decide_eq_false_iff_not]
        rintro rfl
        exact hdefault d rfl hx
      simp [spelled, placeholder?, hc, List.takeWhile_append_of_pos hr, List.dropWhile_append_of_pos hr, hcolon,
        List.takeWhile_append_of_pos hd, List.dropWhile_append_of_pos hd]

theorem isWritten_of_placeholder? (h : placeholder? t = some (p, rest)) : p.IsWritten ∧ t = p.source ++ rest := by
  unfold placeholder? at h
  split at h
  · rename_i c r
    have hr := List.takeWhile_append_dropWhile (p := continuesName) (l := r)
    have hname (x) (hx : x ∈ r.takeWhile continuesName) := List.mem_takeWhile_imp hx
    generalize r.takeWhile continuesName = name at h hr hname
    generalize r.dropWhile continuesName = tail at h hr
    obtain rfl := hr
    split at h
    · rename_i hc
      simp only at h
      split at h
      · obtain ⟨rfl, rfl⟩ := Prod.mk.inj (Option.some.inj h)
        exact ⟨⟨⟨c, name, rfl, hc, hname⟩, nofun, rfl⟩, by simp⟩
      · rename_i body
        have hbody := List.takeWhile_append_dropWhile (p := (· ≠ '}')) (l := body)
        have hdefault : '}' ∉ body.takeWhile (· ≠ '}') := fun hx => by simpa using List.mem_takeWhile_imp hx
        generalize body.takeWhile (· ≠ '}') = default at h hbody hdefault
        generalize body.dropWhile (· ≠ '}') = tail at h hbody
        obtain rfl := hbody
        split at h
        · obtain ⟨rfl, rfl⟩ := Prod.mk.inj (Option.some.inj h)
          refine ⟨⟨⟨c, name, rfl, hc, hname⟩, fun d hd => ?_, by simp [spelled]⟩, by simp⟩
          obtain rfl := Option.some.inj hd
          exact hdefault
        · cases h
      · cases h
    · cases h
  · cases h

theorem placeholder?_eq_some_iff : placeholder? t = some (p, rest) ↔ p.IsWritten ∧ t = p.source ++ rest := by
  refine ⟨isWritten_of_placeholder?, ?_⟩
  rintro ⟨h, rfl⟩
  exact placeholder?_source h rest

theorem placeholder?_eq_none_iff : placeholder? t = none ↔ ¬Begins t := by
  simp only [Option.eq_none_iff_forall_ne_some, Prod.forall, ne_eq, placeholder?_eq_some_iff, Begins, not_exists]

theorem ne_nil_of_begins (h : Begins t) : t ≠ [] := by
  obtain ⟨p, rest, hp, rfl⟩ := h
  rw [hp.source, spelled.eq_def]
  split <;> exact List.cons_ne_nil _ _

end Placeholders

section Expand

variable {env : Environment} {t rest : Text} {p : Placeholder}

theorem expand_nil (env : Environment) : expand env [] = [] := by
  rw [expand]
  rfl

theorem expand_source (env : Environment) (h : p.IsWritten) (rest : Text) :
    expand env (p.source ++ rest) = fill env p ++ expand env rest := by
  have hp := placeholder?_source h rest
  rw [expand]
  split
  · rename_i he
    obtain ⟨rfl, rfl⟩ := Prod.mk.inj (Option.some.inj (he.symm.trans hp))
    rfl
  · rename_i he
    rw [he] at hp
    cases hp

theorem expand_cons {c : Char} {r : Text} (h : ¬Begins (c :: r)) : expand env (c :: r) = c :: expand env r := by
  rw [expand]
  split
  · rename_i he
    rw [placeholder?_eq_none_iff.mpr h] at he
    cases he
  · rfl

theorem expand_append {a b : Text} (h : ∀ k < a.length, ¬Begins ((a ++ b).drop k)) :
    expand env (a ++ b) = a ++ expand env b := by
  induction a with
  | nil => rfl
  | cons c a ih =>
      have hc : ¬Begins (c :: (a ++ b)) := h 0 (Nat.zero_lt_succ _)
      rw [List.cons_append, expand_cons hc, ih fun k hk => h (k + 1) (Nat.succ_lt_succ hk), List.cons_append]

end Expand

section Scan

variable {t : Text} {pieces : List Piece}

theorem filled_placeholder (env : Environment) (p : Placeholder) : (Piece.placeholder p).filled env = fill env p := by
  rw [Piece.filled, fill]
  cases env.lookup p.name <;> cases p.default <;> rfl

theorem IsScan.expand_eq (h : IsScan t pieces) (env : Environment) :
    expand env t = pieces.flatMap (Piece.filled env) := by
  induction h with
  | done => exact expand_nil env
  | placeholder hp _ ih => rw [expand_source env hp, ih, List.flatMap_cons, filled_placeholder]
  | copied hc _ ih => rw [expand_cons hc, ih]; rfl

theorem IsScan.sources (h : IsScan t pieces) : pieces.flatMap Piece.source = t := by
  induction h with
  | done => rfl
  | placeholder hp _ ih => rw [List.flatMap_cons, ih]; rfl
  | copied hc _ ih => rw [List.flatMap_cons, ih]; rfl

theorem exists_isScan (t : Text) : ∃ pieces, IsScan t pieces := by
  induction hn : t.length using Nat.strong_induction_on generalizing t with
  | _ n ih =>
      subst hn
      by_cases ht : Begins t
      · obtain ⟨p, rest, hp, rfl⟩ := ht
        obtain ⟨pieces, h⟩ := ih _ (length_of_placeholder? (placeholder?_source hp rest)) rest rfl
        exact ⟨_, .placeholder hp h⟩
      · cases t with
        | nil => exact ⟨_, .done⟩
        | cons c r =>
            obtain ⟨pieces, h⟩ := ih _ (Nat.lt_succ_self _) r rfl
            exact ⟨_, .copied ht h⟩

theorem IsScan.unique {pieces' : List Piece} (h : IsScan t pieces) (h' : IsScan t pieces') : pieces' = pieces := by
  induction h generalizing pieces' with
  | done =>
      generalize ht : ([] : Text) = t at h'
      cases h' with
      | done => rfl
      | placeholder hp _ => exact absurd ht.symm (ne_nil_of_begins ⟨_, _, hp, rfl⟩)
      | copied => cases ht
  | @placeholder p rest _ hp _ ih =>
      have hbegins : Begins (p.source ++ rest) := ⟨p, rest, hp, rfl⟩
      generalize ht : p.source ++ rest = t at h' hbegins
      cases h' with
      | done => exact absurd rfl (ne_nil_of_begins hbegins)
      | @placeholder p' rest' _ hp' h' =>
          have hread := placeholder?_source hp rest
          rw [ht, placeholder?_source hp'] at hread
          obtain ⟨rfl, rfl⟩ := Prod.mk.inj (Option.some.inj hread)
          rw [ih h']
      | copied hc _ => exact absurd hbegins hc
  | @copied c r _ hc _ ih =>
      generalize ht : c :: r = t at h' hc
      cases h' with
      | done => cases ht
      | placeholder hp _ => exact absurd ⟨_, _, hp, rfl⟩ hc
      | copied _ h' =>
          obtain ⟨rfl, rfl⟩ := List.cons.inj ht
          rw [ih h']

end Scan

section Splice

variable {t : Text} {last : Nat} {m : Match} {ms : List Match}

theorem slice_append_drop (t : Text) {start stop : Nat} (h : start ≤ stop) :
    slice t start stop ++ t.drop stop = t.drop start := by
  have hdrop : t.drop stop = (t.drop start).drop (stop - start) := by rw [List.drop_drop, Nat.add_sub_cancel' h]
  rw [slice, hdrop, List.take_append_drop]

theorem expand_slice (env : Environment) {stop : Nat} (hle : last ≤ stop)
    (h : ∀ k ≥ last, k < stop → ¬Begins (t.drop k)) :
    expand env (t.drop last) = slice t last stop ++ expand env (t.drop stop) := by
  rw [← slice_append_drop t hle]
  refine expand_append fun k hk => ?_
  rw [slice_append_drop t hle, List.drop_drop]
  apply h
  · exact Nat.le_add_right _ _
  · have hlen := List.length_take_le (stop - last) (t.drop last)
    rw [slice] at hk
    omega

theorem Match.IsIn.expand_eq (h : m.IsIn t) (env : Environment) :
    expand env (t.drop m.start) = m.value env t ++ expand env (t.drop m.stop) := by
  obtain ⟨p, hp, hslice, hname, hdefault⟩ := h
  have hle : m.start ≤ m.stop := by
    by_contra hlt
    have hnil : slice t m.start m.stop = [] := by rw [slice, Nat.sub_eq_zero_of_le (by omega), List.take_zero]
    exact ne_nil_of_begins ⟨p, [], hp, (List.append_nil _).symm⟩ (hslice.symm.trans hnil)
  have hvalue : m.value env t = fill env p := by
    rewrite [Match.value, fill, hname, hdefault, hslice]
    cases env.lookup m.name <;> cases m.default <;> rfl
  rw [← slice_append_drop t hle, hslice, expand_source env hp, hvalue]

theorem Finds.splice_eq (h : Finds t last ms) (env : Environment) :
    splice env t last ms = expand env (t.drop last) := by
  induction h with
  | @done last h =>
      have hcopied : expand env (t.drop last ++ []) = t.drop last ++ expand env [] := expand_append fun k _ => by
        rw [List.append_nil, List.drop_drop]
        exact h _ (Nat.le_add_right _ _)
      rw [expand_nil, List.append_nil] at hcopied
      rw [splice, hcopied]
  | next hle hm hfirst _ ih => rw [splice, ih, List.append_assoc, ← hm.expand_eq, ← expand_slice env hle hfirst]

theorem Finds.of_succ (h : Finds t (last + 1) ms) (hlast : ¬Begins (t.drop last)) : Finds t last ms := by
  have hrest {k : Nat} (hk : k ≥ last) (hlater : k ≥ last + 1 → ¬Begins (t.drop k)) : ¬Begins (t.drop k) := by
    rcases Nat.eq_or_lt_of_le hk with rfl | hk
    · exact hlast
    · exact hlater hk
  cases h with
  | done h => exact .done fun k hk => hrest hk (h k)
  | next hle hm hfirst h => exact .next (by omega) hm (fun k hk hlt => hrest hk fun hk => hfirst k hk hlt) h

theorem IsScan.exists_finds {s : Text} {pieces : List Piece} (h : IsScan s pieces) (hs : t.drop last = s) :
    ∃ ms, Finds t last ms := by
  induction h generalizing last with
  | done =>
      refine ⟨[], .done fun k hk hbegins => ne_nil_of_begins hbegins ?_⟩
      rw [List.drop_eq_nil_iff] at hs ⊢
      omega
  | @placeholder p rest _ hp _ ih =>
      have hbehind : t.drop (last + p.source.length) = rest := by rw [← List.drop_drop, hs, List.drop_left]
      obtain ⟨ms, hms⟩ := ih hbehind
      refine ⟨⟨last, last + p.source.length, p.name, p.default⟩ :: ms,
        .next (Nat.le_refl _) ?_ (fun _ hk hlt => absurd hlt (Nat.not_lt.mpr hk)) hms⟩
      refine ⟨p, hp, ?_, rfl, rfl⟩
      rw [slice, hs, Nat.add_sub_cancel_left, List.take_left]
  | @copied c r _ hc _ ih =>
      have hbehind : t.drop (last + 1) = r := by rw [← List.drop_drop, hs, List.drop_one, List.tail_cons]
      obtain ⟨ms, hms⟩ := ih hbehind
      exact ⟨ms, hms.of_succ (hs ▸ hc)⟩

end Splice

/-- The text falls into pieces, and all that expanding it does is to fill the placeholders among them. -/
structure Expansion (t : Text) (pieces : List Piece) : Prop where
  scan : IsScan t pieces
  only : ∀ pieces', IsScan t pieces' → pieces' = pieces
  sources : pieces.flatMap Piece.source = t
  filled : ∀ env, expand env t = pieces.flatMap (Piece.filled env)
  found : ∃ ms, Finds t 0 ms
  spliced : ∀ env ms, Finds t 0 ms → splice env t 0 ms = expand env t
  unnamed : ∀ env env' : Environment,
    (∀ p, .placeholder p ∈ pieces → env.lookup p.name = env'.lookup p.name) → expand env t = expand env' t
  unset : ∀ env : Environment,
    (∀ p, .placeholder p ∈ pieces → env.lookup p.name = none ∧ p.default = none) → expand env t = t

theorem filled_congr {pieces : List Piece} {f g : Piece → Text}
    (hcopied : ∀ c, f (.copied c) = g (.copied c))
    (h : ∀ p, .placeholder p ∈ pieces → f (.placeholder p) = g (.placeholder p)) :
    pieces.flatMap f = pieces.flatMap g := by
  refine List.flatMap_congr fun piece hpiece => ?_
  cases piece with
  | copied c => exact hcopied c
  | placeholder p => exact h p hpiece

/-- Expanding a text is one pass over it from left to right. -/
theorem expand_exact (t : Text) : ∃ pieces, Expansion t pieces := by
  obtain ⟨pieces, h⟩ := exists_isScan t
  refine ⟨pieces, h, fun _ h' => h.unique h', h.sources, h.expand_eq, h.exists_finds List.drop_zero,
    fun env ms hms => by rw [hms.splice_eq, List.drop_zero], fun env env' hsame => ?_, fun env hunset => ?_⟩
  · rw [h.expand_eq, h.expand_eq]
    refine filled_congr (fun _ => rfl) fun p hp => ?_
    rw [Piece.filled, hsame p hp, Piece.filled]
  · have hsame : pieces.flatMap (Piece.filled env) = pieces.flatMap Piece.source := by
      refine filled_congr (fun _ => rfl) fun p hp => ?_
      obtain ⟨hname, hdefault⟩ := hunset p hp
      rw [Piece.filled, hname, hdefault, Piece.source]
    rw [h.expand_eq, hsame, h.sources]

example : expand [("A", "$\x7bB\x7d"), ("B", "x")] "$\x7bA\x7d $\x7bC:-$\x7bB\x7d\x7d" = "$\x7bB\x7d $\x7bB\x7d" := by
  decide +kernel

end BearerGate.Environment
