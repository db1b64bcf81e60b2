import BearerGate.Proofs.Access.Matching
import Mathlib.Data.List.Chain
import Mathlib.Data.List.Forall2

namespace BearerGate.Pattern

def Token.written : Token → Text
  | .lit c => [c]
  | .one => ['?']
  | .run => ['*']
  | .any => ['*', '*']

/-- Tokens that spell a pattern, from left to right: a wildcard is not read as a literal, and `*` not where
`**` stands. -/
structure IsReading (source : Text) (tokens : List Token) : Prop where
  written : tokens.flatMap Token.written = source
  literal : ∀ c, .lit c ∈ tokens → c ≠ '*' ∧ c ≠ '?'
  greedy : tokens.IsChain fun s t => s = .run → t ≠ .run ∧ t ≠ .any

def Token.Fits : Token → Text → Prop
  | .lit c, piece => piece = [c]
  | .one, piece => ∃ c, c ≠ '/' ∧ piece = [c]
  | .run, piece => '/' ∉ piece
  | .any, piece => '\n' ∉ piece

def Tail.Fits : Tail → Text → Prop
  | .none, last => last = []
  | .deeper, last => last = [] ∨ ∃ r, last = '/' :: r ∧ '\n' ∉ r

def Tail.Closes : Tail → Text → Text → Prop
  | .none, body, source => source = body ∧ ¬"/**".toList <:+ source
  | .deeper, body, source => source = body ++ "/**".toList

theorem Tail.accepts_iff {tail : Tail} {last : Text} : tail.accepts last = true ↔ tail.Fits last := by
  cases tail with
  | none => cases last <;> simp [Tail.accepts, Tail.Fits]
  | deeper => exact accepts_deeper last

theorem Token.fits_iff_of_repeats {t : Token} (h : t.repeats = true) {piece : Text} :
    t.Fits piece ↔ ∀ c ∈ piece, t.accepts c = true := by
  cases t with
  | run | any => simp [Token.Fits, Token.accepts, List.forall_mem_ne']
  | lit c | one => cases h

theorem Token.fits_iff_of_not_repeats {t : Token} (h : ¬t.repeats = true) {piece : Text} :
    t.Fits piece ↔ ∃ c, t.accepts c = true ∧ piece = [c] := by
  cases t with
  | lit d => simp [Token.Fits, Token.accepts]
  | one => simp [Token.Fits, Token.accepts]
  | run | any => exact absurd rfl h

theorem accepts_cons_iff {t : Token} {ts : List Token} {tail : Tail} {path : Text} :
    accepts ⟨t :: ts, tail⟩ path = true ↔
      ∃ piece rest, t.Fits piece ∧ accepts ⟨ts, tail⟩ rest = true ∧ path = piece ++ rest := by
  by_cases hrep : t.repeats = true
  · simp only [Token.fits_iff_of_repeats hrep]
    induction path with
    | nil => simp [accepts_cons_nil, hrep]
    | cons c r ih =>
        rw [accepts_cons_cons, if_pos hrep, Bool.or_eq_true, Bool.and_eq_true, ih]
        constructor
        · rintro (h | ⟨hc, piece, rest, hpiece, h, rfl⟩)
          · exact ⟨[], _, fun _ h => absurd h List.not_mem_nil, h, rfl⟩
          · exact ⟨c :: piece, rest, List.forall_mem_cons.mpr ⟨hc, hpiece⟩, h, rfl⟩
        · rintro ⟨piece, rest, hpiece, h, hpath⟩
          rcases List.cons_eq_append_iff.mp hpath with ⟨rfl, rfl⟩ | ⟨piece, rfl, rfl⟩
          · exact .inl h
          · rw [List.forall_mem_cons] at hpiece
            exact .inr ⟨hpiece.1, piece, rest, hpiece.2, h, rfl⟩
  · simp only [Token.fits_iff_of_not_repeats hrep]
    cases path with
    | nil => simp [accepts_cons_nil, hrep]
    | cons c r =>
        rw [accepts_cons_cons, if_neg hrep, Bool.and_eq_true]
        constructor
        · rintro ⟨hc, h⟩
          exact ⟨_, _, ⟨c, hc, rfl⟩, h, rfl⟩
        · rintro ⟨_, rest, ⟨d, hd, rfl⟩, h, hpath⟩
          obtain ⟨rfl, rfl⟩ := List.cons.inj hpath
          exact ⟨hd, h⟩

theorem accepts_iff_pieces {tokens : List Token} {tail : Tail} {path : Text} :
    accepts ⟨tokens, tail⟩ path = true ↔
      ∃ pieces last, List.Forall₂ Token.Fits tokens pieces ∧ tail.Fits last ∧
        path = pieces.flatten ++ last := by
  induction tokens generalizing path with
  | nil => simp [accepts_nil_tokens, Tail.accepts_iff]
  | cons t ts ih =>
      rw [accepts_cons_iff]
      simp only [ih]
      constructor
      · rintro ⟨piece, _, hpiece, ⟨pieces, last, hpieces, hlast, rfl⟩, rfl⟩
        exact ⟨piece :: pieces, last, .cons hpiece hpieces, hlast, by simp⟩
      · rintro ⟨_, last, hfits, hlast, rfl⟩
        cases hfits with
        | cons hpiece hpieces =>
            exact ⟨_, _, hpiece, ⟨_, last, hpieces, hlast, rfl⟩, by simp⟩

theorem IsReading.star_iff {source : Text} {tokens : List Token} (h : IsReading source tokens) :
    (∃ r, source = '*' :: r) ↔ ∃ t ∈ tokens.head?, t = .run ∨ t = .any := by
  obtain rfl := h.written
  cases tokens with
  | nil => simp
  | cons t ts =>
      cases t with
      | lit c => simp [Token.written, (h.literal c List.mem_cons_self).1]
      | one | run | any => simp [Token.written]

section Reading

variable {t : Token} {ts : List Token} {rest : Text}

/-- What a token requires of itself, and of the pattern behind it, to be the one that is read. -/
def Token.MayPrecede : Token → Text → Prop
  | .lit c, _ => c ≠ '*' ∧ c ≠ '?'
  | .run, rest => ∀ r, rest ≠ '*' :: r
  | .one, _ | .any, _ => True

theorem isReading_cons_iff : IsReading (t.written ++ rest) (t :: ts) ↔ IsReading rest ts ∧ t.MayPrecede rest := by
  constructor
  · intro h
    obtain ⟨hnext, hchain⟩ := List.isChain_cons.mp h.greedy
    have hrest : IsReading rest ts :=
      ⟨List.append_cancel_left h.written, fun c hc => h.literal c (List.mem_cons_of_mem _ hc), hchain⟩
    refine ⟨hrest, ?_⟩
    cases t with
    | lit c => exact h.literal c List.mem_cons_self
    | one | any => trivial
    | run =>
        intro r hr
        obtain ⟨t, ht, hstar⟩ := hrest.star_iff.mp ⟨r, hr⟩
        exact hstar.elim (hnext t ht rfl).1 (hnext t ht rfl).2
  · rintro ⟨h, hmay⟩
    refine ⟨by rw [List.flatMap_cons, h.written], ?_, List.isChain_cons.mpr ⟨?_, h.greedy⟩⟩
    · intro c hc
      rcases List.mem_cons.mp hc with rfl | hc
      · exact hmay
      · exact h.literal c hc
    · rintro t' ht' rfl
      rw [← not_or]
      intro hstar
      obtain ⟨r, hr⟩ := h.star_iff.mpr ⟨t', ht', hstar⟩
      exact hmay r hr

theorem scan_written (h : t.MayPrecede rest) : Token.scan (t.written ++ rest) = t :: Token.scan rest := by
  cases t with
  | lit c =>
      rw [Token.written, List.singleton_append, Token.scan]
      · exact fun _ hc => absurd hc h.1
      · exact h.1
      · exact h.2
  | run =>
      rw [Token.written, List.singleton_append, Token.scan]
      exact h
  | one | any => rfl

end Reading

theorem isReading_scan (source : Text) : IsReading source (Token.scan source) := by
  induction source using Token.scan.induct with
  | case1 => exact ⟨rfl, fun _ h => absurd h List.not_mem_nil, .nil⟩
  | case2 r ih => exact isReading_cons_iff (t := .any).mpr ⟨ih, trivial⟩
  | case3 r hstar ih =>
      have h : Token.run.MayPrecede r := hstar
      have hscan : Token.scan ('*' :: r) = .run :: Token.scan r := scan_written h
      rw [hscan]
      exact isReading_cons_iff (t := .run).mpr ⟨ih, h⟩
  | case4 r ih => exact isReading_cons_iff (t := .one).mpr ⟨ih, trivial⟩
  | case5 c r hpair hstar hmark ih =>
      have h : (Token.lit c).MayPrecede r := ⟨hstar, hmark⟩
      have hscan : Token.scan (c :: r) = .lit c :: Token.scan r := scan_written h
      rw [hscan]
      exact isReading_cons_iff (t := .lit c).mpr ⟨ih, h⟩

theorem IsReading.eq_scan {source : Text} {tokens : List Token} (h : IsReading source tokens) :
    tokens = Token.scan source := by
  induction tokens generalizing source with
  | nil =>
      obtain rfl := h.written
      rfl
  | cons t ts ih =>
      obtain rfl := h.written
      rw [List.flatMap_cons] at h ⊢
      obtain ⟨hrest, hmay⟩ := isReading_cons_iff.mp h
      rw [scan_written hmay, ← ih hrest]

theorem parse_of_closes {source body : Text} {tail : Tail} (h : tail.Closes body source) :
    parse source = ⟨Token.scan body, tail⟩ := by
  cases tail with
  | none =>
      obtain ⟨rfl, hnot⟩ := h
      rw [parse, Text.before?, if_neg (mt List.isSuffixOf_iff_suffix.mp hnot)]
  | deeper =>
      obtain rfl := h
      rw [parse, Text.before?_append]

theorem exists_closes (source : Text) : ∃ body tail, Tail.Closes tail body source := by
  by_cases h : "/**".toList <:+ source
  · obtain ⟨body, rfl⟩ := h
    exact ⟨body, .deeper, rfl⟩
  · exact ⟨source, .none, rfl, h⟩

/-- A pattern accepts the paths that fall into one piece for each of its tokens and a final piece. -/
theorem accepts_iff_exists_pieces (source path : Text) :
    (parse source).accepts path = true ↔
      ∃ body tail tokens pieces last, Tail.Closes tail body source ∧ IsReading body tokens ∧
        List.Forall₂ Token.Fits tokens pieces ∧ tail.Fits last ∧ path = pieces.flatten ++ last := by
  constructor
  · intro h
    obtain ⟨body, tail, hcloses⟩ := exists_closes source
    rw [parse_of_closes hcloses, accepts_iff_pieces] at h
    obtain ⟨pieces, last, hpieces⟩ := h
    exact ⟨body, tail, _, pieces, last, hcloses, isReading_scan body, hpieces⟩
  · rintro ⟨body, tail, tokens, pieces, last, hcloses, hreading, hpieces⟩
    rw [parse_of_closes hcloses, accepts_iff_pieces]
    obtain rfl := hreading.eq_scan
    exact ⟨pieces, last, hpieces⟩

end BearerGate.Pattern
