import BearerGate.Access.Pattern
import BearerGate.Proofs.Text.Parts

namespace BearerGate.Pattern

/-- The rows of a path are those of the path without its first character, with one entry in front. -/
theorem tail_rows (tail : Tail) (c : Char) (r : Text) (ts : List Token) :
    (rows tail (c :: r) ts).tail = rows tail r ts := by
  induction ts with
  | nil => rfl
  | cons t ts ih => rw [rows, row, ih, List.tail_cons, rows]

theorem accepts_nil_tokens (tail : Tail) (path : Text) : accepts ⟨[], tail⟩ path = tail.accepts path := by
  cases path <;> rfl

theorem accepts_cons_nil (t : Token) (ts : List Token) (tail : Tail) :
    accepts ⟨t :: ts, tail⟩ [] = (t.repeats && accepts ⟨ts, tail⟩ []) := rfl

theorem accepts_cons_cons (t : Token) (ts : List Token) (tail : Tail) (c : Char) (r : Text) :
    accepts ⟨t :: ts, tail⟩ (c :: r) =
      if t.repeats then accepts ⟨ts, tail⟩ (c :: r) || (t.accepts c && accepts ⟨t :: ts, tail⟩ r)
      else t.accepts c && accepts ⟨ts, tail⟩ r := by
  simp only [accepts, rows, row, tail_rows, List.headD_cons]

theorem accepts_literal (text : Text) (ts : List Token) (tail : Tail) (path : Text) :
    accepts ⟨text.map .lit ++ ts, tail⟩ path = true ↔
      ∃ rest, path = text ++ rest ∧ accepts ⟨ts, tail⟩ rest = true := by
  induction text generalizing path with
  | nil => simp
  | cons d text ih =>
      cases path with
      | nil => simp [accepts_cons_nil, Token.repeats]
      | cons c r =>
          rw [List.map_cons, List.cons_append, accepts_cons_cons, if_neg (by simp [Token.repeats]),
            Bool.and_eq_true, ih]
          simp only [Token.accepts, decide_eq_true_eq, List.cons_append, List.cons.injEq]
          constructor
          · rintro ⟨hc, rest, hr, hrest⟩
            exact ⟨rest, ⟨hc, hr⟩, hrest⟩
          · rintro ⟨rest, ⟨hc, hr⟩, hrest⟩
            exact ⟨hc, rest, hr, hrest⟩

theorem accepts_deeper (rest : Text) :
    Tail.deeper.accepts rest = true ↔ rest = [] ∨ ∃ r, rest = '/' :: r ∧ '\n' ∉ r := by
  cases rest with
  | nil => simp [Tail.accepts]
  | cons c r =>
      simp only [Tail.accepts, Bool.and_eq_true, decide_eq_true_eq, List.all_eq_true, reduceCtorEq,
        List.cons.injEq, false_or]
      constructor
      · rintro ⟨rfl, h⟩
        exact ⟨r, ⟨rfl, rfl⟩, fun hn => h _ hn rfl⟩
      · rintro ⟨r', ⟨rfl, rfl⟩, h⟩
        exact ⟨rfl, fun x hx he => h (he ▸ hx)⟩

def IsLiteral (source : Text) : Prop := '*' ∉ source ∧ '?' ∉ source

instance (source : Text) : Decidable (IsLiteral source) :=
  inferInstanceAs (Decidable (_ ∧ _))

theorem scan_literal {source : Text} (h : IsLiteral source) :
    Token.scan source = source.map .lit := by
  induction source with
  | nil => rfl
  | cons c r ih =>
      obtain ⟨hs, hq⟩ := h
      simp only [List.mem_cons, not_or] at hs hq
      have hscan : Token.scan (c :: r) = .lit c :: Token.scan r := by
        rw [Token.scan]
        · rintro r' rfl
          exact absurd rfl hs.1
        · rintro rfl
          exact absurd rfl hs.1
        · rintro rfl
          exact absurd rfl hq.1
      rw [hscan, ih ⟨hs.2, hq.2⟩, List.map_cons]

theorem parse_subtree {source : Text} (h : IsLiteral source) :
    parse (source ++ "/**") = ⟨source.map .lit, .deeper⟩ := by
  rw [parse, Text.before?_append]
  simp only [scan_literal h]

/-- A subtree pattern admits the bare path and what lies below it, up to a line feed. -/
theorem accepts_subtree {source : Text} (h : IsLiteral source) (path : Text) :
    (parse (source ++ "/**")).accepts path = true ↔
      path = source ∨ ∃ r, path = source ++ '/' :: r ∧ '\n' ∉ r := by
  have hl := accepts_literal source [] .deeper path
  rw [List.append_nil] at hl
  rw [parse_subtree h, hl]
  simp only [accepts_nil_tokens, accepts_deeper]
  constructor
  · rintro ⟨rest, rfl, rfl | ⟨r, rfl, hr⟩⟩
    · exact .inl (List.append_nil _)
    · exact .inr ⟨r, rfl, hr⟩
  · rintro (rfl | ⟨r, rfl, hr⟩)
    · exact ⟨[], (List.append_nil _).symm, .inl rfl⟩
    · exact ⟨_, rfl, .inr ⟨r, rfl, hr⟩⟩

end BearerGate.Pattern
