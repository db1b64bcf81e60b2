import BearerGate.Json.Build
import BearerGate.Json.Printer
import BearerGate.Proofs.Text.Utf8
import Mathlib.Tactic.FinCases
import Mathlib.Tactic.IntervalCases

namespace BearerGate.Raw

def IsPlain (b : UInt8) : Prop := 32 ≤ b ∧ b ≠ 34 ∧ b ≠ 92

theorem quoted?_plain {b : UInt8} (h : IsPlain b) (r : Bytes) :
    quoted? (b :: r) = (quoted? r).map fun p => (b :: p.1, p.2) := by
  obtain ⟨h₁, h₂, h₃⟩ := h
  rw [quoted?.eq_def]
  split
  · simp_all
  · simp_all
  · simp_all
  · simp_all
  · rename_i x r' _ _ _ he
    obtain ⟨rfl, rfl⟩ := List.cons.inj he
    rw [if_neg (by simp [h₁, h₃])]

theorem unescape?_plain {b : UInt8} (h : IsPlain b) (r : Bytes) :
    unescape? (b :: r) = (unescape? r).map (b :: ·) := by
  obtain ⟨h₁, h₂, h₃⟩ := h
  rw [unescape?.eq_def]
  split
  · simp_all
  · simp_all
  · simp_all
  · simp_all

theorem quoted?_append {p : Bytes} (h : ∀ b ∈ p, IsPlain b) (r : Bytes) :
    quoted? (p ++ r) = (quoted? r).map fun q => (p ++ q.1, q.2) := by
  induction p with
  | nil => simp
  | cons b p ih =>
      rw [List.cons_append, quoted?_plain (h b (by simp)), ih fun x hx => h x (by simp [hx])]
      simp [Function.comp_def]

theorem unescape?_append {p : Bytes} (h : ∀ b ∈ p, IsPlain b) (r : Bytes) :
    unescape? (p ++ r) = (unescape? r).map (p ++ ·) := by
  induction p with
  | nil => simp
  | cons b p ih =>
      rw [List.cons_append, unescape?_plain (h b (by simp)), ih fun x hx => h x (by simp [hx])]
      simp [Function.comp_def]

theorem isPlain_of_mem {c : Char} (hc : 32 ≤ c.toNat) (hquote : c ≠ '"') (hslash : c ≠ '\\') {b : UInt8}
    (hb : b ∈ Utf8.encodeChar c) : IsPlain b := by
  have hq : c.toNat ≠ 34 := fun h => hquote (Char.ext (UInt32.toNat_inj.mp h))
  have hs : c.toNat ≠ 92 := fun h => hslash (Char.ext (UInt32.toNat_inj.mp h))
  have hvalid : c.toNat < 0xD800 ∨ 0xDFFF < c.toNat ∧ c.toNat < 0x110000 := c.valid
  have hplain (n : Nat) (h : n < 256) (h₁ : 32 ≤ n) (h₂ : n ≠ 34) (h₃ : n ≠ 92) : IsPlain n.toUInt8 := by
    simp only [IsPlain, UInt8.le_iff_toNat_le, ne_eq, ← UInt8.toNat_inj, Utf8.toNat_toUInt8 h]
    exact ⟨h₁, h₂, h₃⟩
  rw [Utf8.encodeChar] at hb
  split at hb
  · rw [List.mem_singleton] at hb
    rw [hb]
    exact hplain _ (by omega) hc hq hs
  split at hb
  · simp only [List.mem_cons, List.not_mem_nil, or_false] at hb
    rcases hb with rfl | rfl <;> exact hplain _ (by omega) (by omega) (by omega) (by omega)
  split at hb
  · simp only [List.mem_cons, List.not_mem_nil, or_false] at hb
    rcases hb with rfl | rfl | rfl <;> exact hplain _ (by omega) (by omega) (by omega) (by omega)
  · simp only [List.mem_cons, List.not_mem_nil, or_false] at hb
    rcases hb with rfl | rfl | rfl | rfl <;> exact hplain _ (by omega) (by omega) (by omega) (by omega)

theorem escapeChar_eq_self {c : Char} (hc : 32 ≤ c.toNat) (hquote : c ≠ '"') (hslash : c ≠ '\\') :
    Json.escapeChar c = [c] := by
  rw [Json.escapeChar, if_neg hquote, if_neg hslash]
  repeat rw [if_neg (by omega)]

theorem unescape?_unicode {a b c d : UInt8} (h : hex4 a b c d < 0xD800) (r : Bytes) :
    unescape? (92 :: 117 :: a :: b :: c :: d :: r) =
      (unescape? r).map (Utf8.encodeChar (Char.ofNat (hex4 a b c d)) ++ ·) := by
  rw [unescape?.eq_def]
  simp only
  rw [if_neg (by simp; omega), if_neg (by simp; omega)]

def hexByte (n : Nat) : UInt8 := if n < 10 then (48 + n).toUInt8 else (87 + n).toUInt8

theorem encode_escapeChar_control : ∀ n < 32, n ∉ [8, 9, 10, 12, 13] →
    Utf8.encode (Json.escapeChar (Char.ofNat n)) = [92, 117, 48, 48, hexByte (n / 16), hexByte (n % 16)] ∧
      hex4 48 48 (hexByte (n / 16)) (hexByte (n % 16)) = n := by
  decide

theorem unescape?_escapeChar (c : Char) (r : Bytes) :
    unescape? (Utf8.encode (Json.escapeChar c) ++ r) = (unescape? r).map (Utf8.encodeChar c ++ ·) := by
  by_cases hc : c.toNat < 32
  · by_cases hshort : c.toNat ∈ [8, 9, 10, 12, 13]
    · obtain ⟨n, hn, rfl⟩ : ∃ n ∈ [8, 9, 10, 12, 13], c = Char.ofNat n :=
        ⟨c.toNat, hshort, (Char.ofNat_toNat c).symm⟩
      fin_cases hn <;> rfl
    · obtain ⟨hx, hn⟩ := encode_escapeChar_control c.toNat hc hshort
      rw [Char.ofNat_toNat] at hx
      rw [hx]
      simp only [List.cons_append, List.nil_append]
      rw [unescape?_unicode (by omega), hn, Char.ofNat_toNat]
  by_cases hquote : c = '"'
  · subst hquote
    rfl
  by_cases hslash : c = '\\'
  · subst hslash
    rfl
  · rw [escapeChar_eq_self (by omega) hquote hslash, unescape?_append fun b hb => ?_]
    · simp [Utf8.encode]
    · exact isPlain_of_mem (by omega) hquote hslash (by simpa [Utf8.encode] using hb)

theorem quoted?_escapeChar (c : Char) (r : Bytes) :
    quoted? (Utf8.encode (Json.escapeChar c) ++ r) =
      (quoted? r).map fun p => (Utf8.encode (Json.escapeChar c) ++ p.1, p.2) := by
  by_cases hc : c.toNat < 32
  · obtain ⟨n, hn, rfl⟩ : ∃ n < 32, c = Char.ofNat n := ⟨c.toNat, hc, (Char.ofNat_toNat c).symm⟩
    interval_cases n <;> rfl
  by_cases hquote : c = '"'
  · subst hquote
    rfl
  by_cases hslash : c = '\\'
  · subst hslash
    rfl
  · rw [escapeChar_eq_self (by omega) hquote hslash, quoted?_append fun b hb => ?_]
    exact isPlain_of_mem (by omega) hquote hslash (by simpa [Utf8.encode] using hb)

def escaped (t : Text) : Bytes := Utf8.encode (t.flatMap Json.escapeChar)

theorem encode_quote (t : Text) : Utf8.encode (Json.quote t) = 34 :: (escaped t ++ [34]) := by
  rw [Json.quote, Utf8.encode_append]
  rfl

theorem encode_quote_append (k t : Text) :
    Utf8.encode (Json.quote k ++ ':' :: t) = 34 :: (escaped k ++ 34 :: 58 :: Utf8.encode t) := by
  have hcolon : Utf8.encodeChar ':' = [58] := rfl
  rw [Utf8.encode_append, encode_quote, Utf8.encode_cons, hcolon]
  simp only [List.cons_append, List.append_assoc, List.nil_append]

theorem escaped_cons (c : Char) (t : Text) :
    escaped (c :: t) = Utf8.encode (Json.escapeChar c) ++ escaped t := by
  rw [escaped, List.flatMap_cons, Utf8.encode_append]
  rfl

theorem quoted?_escaped (t : Text) (r : Bytes) : quoted? (escaped t ++ 34 :: r) = some (escaped t, r) := by
  induction t with
  | nil => rfl
  | cons c t ih =>
      rw [escaped_cons, List.append_assoc, quoted?_escapeChar, ih]
      rfl

theorem unquote?_escaped (t : Text) : unquote? (escaped t) = some t := by
  have h : unescape? (escaped t) = some (Utf8.encode t) := by
    induction t with
    | nil => rfl
    | cons c t ih =>
        rw [escaped_cons, unescape?_escapeChar, ih]
        rfl
  rw [unquote?, h]
  exact Utf8.decode?_encode t

theorem skipSpace_cons {b : UInt8} (h : isSpace b = false) (s : Bytes) : skipSpace (b :: s) = b :: s := by
  rw [skipSpace, List.dropWhile_cons_of_neg (by rw [h]; exact Bool.false_ne_true)]

theorem value?_string (fuel : Nat) (t : Text) (r : Bytes) :
    value? (fuel + 1) (34 :: (escaped t ++ 34 :: r)) = some (.string (escaped t), r) := by
  rw [value?, skipSpace_cons (by decide)]
  simp only
  rw [quoted?_escaped]
  rfl

section Members

variable {fuel : Nat} {s r : Bytes} {v : Raw}

theorem members?_last (k : Text) (h : value? fuel s = some (v, 125 :: r)) :
    members? (fuel + 1) (34 :: (escaped k ++ 34 :: 58 :: s)) = some ([(escaped k, v)], r) := by
  rw [members?, skipSpace_cons (by decide)]
  simp only [quoted?_escaped, skipSpace_cons (b := 58) (by decide), h]
  rfl

theorem members?_more (k : Text) (h : value? fuel s = some (v, 44 :: r)) :
    members? (fuel + 1) (34 :: (escaped k ++ 34 :: 58 :: s)) =
      (members? fuel r).map fun p => ((escaped k, v) :: p.1, p.2) := by
  rw [members?, skipSpace_cons (by decide)]
  simp only [quoted?_escaped, skipSpace_cons (b := 58) (by decide), h]
  rfl

end Members

def member (k t : Text) : Text := Json.quote k ++ ':' :: (Json.quote t ++ [','])

theorem encode_member (k t : Text) :
    Utf8.encode (member k t) = 34 :: (escaped k ++ 34 :: 58 :: 34 :: (escaped t ++ [34, 44])) := by
  have hcomma : Utf8.encode [','] = [44] := rfl
  rw [member, encode_quote_append, Utf8.encode_append, hcomma, encode_quote]
  simp only [List.cons_append, List.append_assoc, List.nil_append]

theorem members?_member (fuel : Nat) (k t : Text) (r : Bytes) :
    members? (fuel + 2) (Utf8.encode (member k t) ++ r) =
      (members? (fuel + 1) r).map fun p => ((escaped k, .string (escaped t)) :: p.1, p.2) := by
  rw [encode_member]
  simp only [List.cons_append, List.append_assoc, List.nil_append]
  exact members?_more k (value?_string fuel t _)

theorem value?_members (fuel : Nat) (x : Bytes) :
    value? (fuel + 1) (123 :: 34 :: x) = (members? fuel (34 :: x)).map fun p => (object p.1, p.2) := by
  rw [value?, skipSpace_cons (by decide)]
  simp only [skipSpace_cons (b := 34) (by decide)]
  split
  · simp_all
  · rfl

end BearerGate.Raw
