import BearerGate.Access.Pattern
import BearerGate.Proofs.Access.Pieces
import Mathlib.Computability.Language

namespace BearerGate

open Computability

namespace Regex

inductive Atom
  | slash
  | notSlash
  | dot

def Atom.written : Atom → Text
  | slash => "/"
  | notSlash => "[^/]"
  | dot => "."

def Atom.Matches : Atom → Char → Prop
  | slash, c => c = '/'
  | notSlash, c => c ≠ '/'
  | dot, c => c ≠ '\n'

def Atom.language (a : Atom) : Language Char := {p | ∃ c, a.Matches c ∧ p = [c]}

end Regex

inductive Regex
  | literal (text : Text)
  | one (a : Regex.Atom)
  | many (a : Regex.Atom)
  | optional (r : Regex)
  | seq (r s : Regex)

namespace Regex

def written (escape : Text → Text) : Regex → Text
  | literal text => escape text
  | one a => a.written
  | many a => a.written ++ "*"
  | optional r => "(" ++ written escape r ++ ")?"
  | seq r s => written escape r ++ written escape s

def language : Regex → Language Char
  | literal text => {text}
  | one a => a.language
  | many a => a.language∗
  | optional r => 1 + r.language
  | seq r s => r.language * s.language

theorem mem_literal {text p : Text} : p ∈ (literal text).language ↔ p = text := Iff.rfl

theorem mem_one {a : Atom} {p : Text} : p ∈ (one a).language ↔ ∃ c, a.Matches c ∧ p = [c] := Iff.rfl

theorem mem_many {a : Atom} {p : Text} : p ∈ (many a).language ↔ ∀ c ∈ p, a.Matches c := by
  rw [language, Language.mem_kstar]
  constructor
  · rintro ⟨parts, rfl, hparts⟩ c hc
    obtain ⟨part, hpart, hmem⟩ := List.mem_flatten.mp hc
    obtain ⟨d, hd, rfl⟩ := hparts part hpart
    obtain rfl := List.mem_singleton.mp hmem
    exact hd
  · intro h
    refine ⟨p.map fun c => [c], (List.flatMap_singleton' p).symm, fun part hpart => ?_⟩
    obtain ⟨c, hc, rfl⟩ := List.mem_map.mp hpart
    exact ⟨c, h c hc, rfl⟩

theorem mem_optional {r : Regex} {p : Text} : p ∈ (optional r).language ↔ p = [] ∨ p ∈ r.language := Iff.rfl

theorem mem_seq {r s : Regex} {p : Text} :
    p ∈ (seq r s).language ↔ ∃ front ∈ r.language, ∃ rest ∈ s.language, front ++ rest = p := Iff.rfl

end Regex

namespace Pattern

def bodyRegex : Text → Text → Regex
  | literal, [] => .literal literal
  | literal, '*' :: '*' :: r => .seq (.literal literal) (.seq (.many .dot) (bodyRegex [] r))
  | literal, '*' :: r => .seq (.literal literal) (.seq (.many .notSlash) (bodyRegex [] r))
  | literal, '?' :: r => .seq (.literal literal) (.seq (.one .notSlash) (bodyRegex [] r))
  | literal, c :: r => bodyRegex (literal ++ [c]) r

def regex (source : Text) : Regex :=
  match Text.before? "/**" source with
  | some body => .seq (bodyRegex [] body) (.optional (.seq (.one .slash) (.many .dot)))
  | none => bodyRegex [] source

theorem written_bodyRegex (escape : Text → Text) (literal source : Text) :
    (bodyRegex literal source).written escape = translateBody escape literal source := by
  induction literal, source using bodyRegex.induct with
  | case1 literal => rfl
  | case2 literal r ih =>
      rw [bodyRegex, translateBody, ← ih, List.append_assoc]
      rfl
  | case3 literal r hstar ih =>
      rw [bodyRegex, translateBody, ← ih, List.append_assoc]
      · rfl
      · exact hstar
      · exact hstar
  | case4 literal r ih =>
      rw [bodyRegex, translateBody, ← ih, List.append_assoc]
      rfl
  | case5 literal c r hpair hstar hmark ih =>
      rw [bodyRegex, translateBody, ih]
      all_goals assumption

theorem translate_eq (escape : Text → Text) (source : Text) :
    translate escape source = "^" ++ (regex source).written escape ++ "$" := by
  rw [translate, regex]
  cases Text.before? "/**" source with
  | none => rw [written_bodyRegex]
  | some body => simp only [Regex.written, written_bodyRegex, List.append_assoc]; rfl

theorem mem_wildcard {t : Token} {ts : List Token} {w s : Regex}
    (hw : ∀ piece, piece ∈ w.language ↔ t.Fits piece)
    (hs : ∀ rest, rest ∈ s.language ↔ accepts ⟨ts, .none⟩ rest = true) (literal path : Text) :
    path ∈ (Regex.seq (.literal literal) (.seq w s)).language ↔
      accepts ⟨literal.map .lit ++ t :: ts, .none⟩ path = true := by
  rw [accepts_literal]
  simp only [accepts_cons_iff, Regex.mem_seq, Regex.mem_literal, hw, hs]
  constructor
  · rintro ⟨_, rfl, _, ⟨piece, hpiece, rest, hrest, rfl⟩, rfl⟩
    exact ⟨_, rfl, piece, rest, hpiece, hrest, rfl⟩
  · rintro ⟨_, rfl, piece, rest, hpiece, hrest, rfl⟩
    exact ⟨literal, rfl, _, ⟨piece, hpiece, rest, hrest, rfl⟩, rfl⟩

theorem mem_bodyRegex (literal source path : Text) :
    path ∈ (bodyRegex literal source).language ↔
      accepts ⟨literal.map .lit ++ Token.scan source, .none⟩ path = true := by
  -- What is collected so far stands in front of the tokens of what is still to be read.
  induction literal, source using bodyRegex.induct generalizing path with
  | case1 literal =>
      rw [bodyRegex, Regex.mem_literal, accepts_literal]
      simp [Token.scan, accepts_nil_tokens, Tail.accepts_iff, Tail.Fits]
  | case2 literal r ih =>
      have hany (piece) : piece ∈ (Regex.many .dot).language ↔ Token.any.Fits piece :=
        Regex.mem_many.trans List.forall_mem_ne'
      exact mem_wildcard hany ih literal path
  | case3 literal r hstar ih =>
      have hrun (piece) : piece ∈ (Regex.many .notSlash).language ↔ Token.run.Fits piece :=
        Regex.mem_many.trans List.forall_mem_ne'
      rw [bodyRegex, Token.scan]
      · exact mem_wildcard hrun ih literal path
      · exact hstar
      · exact hstar
  | case4 literal r ih =>
      have hone (piece) : piece ∈ (Regex.one .notSlash).language ↔ Token.one.Fits piece := Regex.mem_one
      exact mem_wildcard hone ih literal path
  | case5 literal c r hpair hstar hmark ih =>
      rw [bodyRegex, ih, Token.scan, List.map_append, List.append_assoc]
      · rfl
      all_goals assumption

theorem accepts_iff_append {tokens : List Token} {tail : Tail} {path : Text} :
    accepts ⟨tokens, tail⟩ path = true ↔
      ∃ front last, accepts ⟨tokens, .none⟩ front = true ∧ tail.Fits last ∧ path = front ++ last := by
  simp only [accepts_iff_pieces]
  constructor
  · rintro ⟨pieces, last, hpieces, hlast, rfl⟩
    exact ⟨_, last, ⟨pieces, [], hpieces, rfl, (List.append_nil _).symm⟩, hlast, rfl⟩
  · rintro ⟨_, last, ⟨pieces, _, hpieces, rfl, rfl⟩, hlast, rfl⟩
    exact ⟨pieces, last, hpieces, hlast, by rw [List.append_nil]⟩

theorem mem_deeper {last : Text} :
    last ∈ (Regex.optional (.seq (.one .slash) (.many .dot))).language ↔ Tail.deeper.Fits last := by
  rw [Regex.mem_optional, Regex.mem_seq, Tail.Fits]
  refine or_congr_right ?_
  constructor
  · rintro ⟨_, ⟨_, rfl, rfl⟩, r, hr, rfl⟩
    exact ⟨r, rfl, List.forall_mem_ne'.mp (Regex.mem_many.mp hr)⟩
  · rintro ⟨r, rfl, hr⟩
    exact ⟨['/'], ⟨'/', rfl, rfl⟩, r, Regex.mem_many.mpr (List.forall_mem_ne'.mpr hr), rfl⟩

theorem mem_regex (source path : Text) :
    path ∈ (regex source).language ↔ (parse source).accepts path = true := by
  rw [regex, parse]
  cases Text.before? "/**" source with
  | none => exact mem_bodyRegex [] source path
  | some body =>
      rw [accepts_iff_append, Regex.mem_seq]
      constructor
      · rintro ⟨front, hfront, last, hlast, rfl⟩
        exact ⟨front, last, (mem_bodyRegex [] body front).mp hfront, mem_deeper.mp hlast, rfl⟩
      · rintro ⟨front, last, hfront, hlast, rfl⟩
        exact ⟨front, (mem_bodyRegex [] body front).mpr hfront, last, mem_deeper.mpr hlast, rfl⟩

/-- A pattern is translated to an expression for exactly the paths that it accepts, which are those that fall
into one piece for each of its tokens and a final piece. -/
theorem translation_exact (source : Text) :
    (∀ escape, translate escape source = "^" ++ (regex source).written escape ++ "$") ∧
    ∀ path, (path ∈ (regex source).language ↔ (parse source).accepts path = true) ∧
      ((parse source).accepts path = true ↔
        ∃ body tail tokens pieces last, Tail.Closes tail body source ∧ IsReading body tokens ∧
          List.Forall₂ Token.Fits tokens pieces ∧ tail.Fits last ∧ path = pieces.flatten ++ last) :=
  ⟨fun escape => translate_eq escape source,
    fun path => ⟨mem_regex source path, accepts_iff_exists_pieces source path⟩⟩

end Pattern

end BearerGate
