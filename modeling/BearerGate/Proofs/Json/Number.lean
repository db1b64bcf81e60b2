import BearerGate.Json.Decode
import BearerGate.Json.Printer
import BearerGate.Proofs.Text.Utf8
import Mathlib.Data.List.Basic
import Mathlib.Tactic.IntervalCases

namespace BearerGate

def Word.IsInteger (n : Int) : Prop := -(half : Int) ≤ n ∧ n < size

namespace Raw

/-- What may stand behind a value in an array or an object. -/
def Closes (r : Bytes) : Prop := ∀ b ∈ r.head?, b = 44 ∨ b = 93 ∨ b = 125

section Decimal

variable {n : Nat}

theorem ofNat_eq (n : Nat) : Text.ofNat n = Nat.toDigits 10 n := by
  rw [Text.ofNat, Nat.toString_eq_repr, Nat.repr, String.toList_ofList]

theorem toNat_of_isDigit {c : Char} (h : c.isDigit = true) : 48 ≤ c.toNat ∧ c.toNat ≤ 57 := by
  rw [Char.isDigit, Bool.and_eq_true, decide_eq_true_eq, decide_eq_true_eq] at h
  exact ⟨UInt32.le_iff_toNat_le.mp h.1, UInt32.le_iff_toNat_le.mp h.2⟩

theorem encode_digits {t : Text} (h : ∀ c ∈ t, c.isDigit = true) :
    Utf8.encode t = t.map fun c => c.toNat.toUInt8 := by
  induction t with
  | nil => rfl
  | cons c t ih =>
      rw [List.forall_mem_cons] at h
      obtain ⟨-, hc⟩ := toNat_of_isDigit h.1
      rw [Utf8.encode_cons, Utf8.encodeChar_ascii (by omega), ih h.2]
      rfl

theorem isDigit_of_mem_ofNat {c : Char} (h : c ∈ Text.ofNat n) : c.isDigit = true := by
  rw [ofNat_eq] at h
  exact Nat.isDigit_of_mem_toDigits (by decide) (by decide) h

theorem isDigit_of_mem_encode {b : UInt8} (h : b ∈ Utf8.encode (Text.ofNat n)) : isDigit b = true := by
  rw [encode_digits fun _ => isDigit_of_mem_ofNat] at h
  obtain ⟨c, hc, rfl⟩ := List.mem_map.mp h
  obtain ⟨hlow, hhigh⟩ := toNat_of_isDigit (isDigit_of_mem_ofNat hc)
  rw [isDigit, Bool.and_eq_true, decide_eq_true_eq, decide_eq_true_eq, UInt8.le_iff_toNat_le,
    UInt8.lt_iff_toNat_lt, Utf8.toNat_toUInt8 (by omega)]
  exact ⟨hlow, Nat.lt_succ_of_le hhigh⟩

theorem natOf_encode (n : Nat) : natOf (Utf8.encode (Text.ofNat n)) = n := by
  have hfold (t : Text) (ht : ∀ c ∈ t, c.isDigit = true) (i : Nat) :
      (t.map fun c => c.toNat.toUInt8).foldl (fun n b => 10 * n + (b - 48).toNat) i = Nat.ofDigitChars 10 t i := by
    rw [List.foldl_map, Nat.ofDigitChars]
    refine List.foldl_ext _ _ _ fun k c hc => ?_
    obtain ⟨hlow, hhigh⟩ := toNat_of_isDigit (ht c hc)
    rw [UInt8.toNat_sub_of_le _ _ (by rw [UInt8.le_iff_toNat_le, Utf8.toNat_toUInt8 (by omega)]; exact hlow),
      Utf8.toNat_toUInt8 (by omega)]
    rfl
  have hdigits (c) (hc : c ∈ Text.ofNat n) := isDigit_of_mem_ofNat hc
  rw [natOf, encode_digits hdigits, hfold _ hdigits, ofNat_eq, Nat.ofDigitChars_toDigits (by decide) (by decide)]

theorem head_toDigits (h : 0 < n) : ∃ c r, Nat.toDigits 10 n = c :: r ∧ c ≠ '0' := by
  induction n using Nat.strong_induction_on with
  | _ n ih =>
      by_cases hn : n < 10
      · refine ⟨n.digitChar, [], Nat.toDigits_of_lt_base hn, ?_⟩
        interval_cases n <;> decide
      · obtain ⟨c, r, hr, hc⟩ := ih (n / 10) (by omega) (by omega)
        rw [Nat.toDigits_of_base_le (by decide) (by omega), hr]
        exact ⟨c, _, rfl, hc⟩

theorem encode_ofNat_cases (n : Nat) :
    Utf8.encode (Text.ofNat n) = [48] ∨ ∃ b s, Utf8.encode (Text.ofNat n) = b :: s ∧ b ≠ 48 := by
  rcases Nat.eq_zero_or_pos n with rfl | hn
  · exact .inl rfl
  · obtain ⟨c, r, hr, hc⟩ := head_toDigits hn
    rw [← ofNat_eq] at hr
    have hdigit := isDigit_of_mem_ofNat (n := n) (hr ▸ List.mem_cons_self)
    obtain ⟨hlow, hhigh⟩ := toNat_of_isDigit hdigit
    refine .inr ⟨c.toNat.toUInt8, Utf8.encode r, ?_, fun h => hc ?_⟩
    · rw [hr, Utf8.encode_cons, Utf8.encodeChar_ascii (by omega)]
      rfl
    · have hnat := congrArg UInt8.toNat h
      rw [Utf8.toNat_toUInt8 (by omega)] at hnat
      exact Char.ext (UInt32.toNat_inj.mp hnat)

end Decimal

section Closed

variable {r : Bytes}

theorem Closes.nil : Closes [] := nofun

theorem Closes.cons {b : UInt8} (h : b = 44 ∨ b = 93 ∨ b = 125) (r : Bytes) : Closes (b :: r) := by
  intro c hc
  obtain rfl := Option.some.inj hc
  exact h

theorem Closes.cases (h : Closes r) : r = [] ∨ ∃ b s, r = b :: s ∧ (b = 44 ∨ b = 93 ∨ b = 125) := by
  cases r with
  | nil => exact .inl rfl
  | cons b s => exact .inr ⟨b, s, rfl, h b rfl⟩

theorem digits_append {ds : Bytes} (hds : ∀ b ∈ ds, isDigit b = true) (hr : Closes r) :
    digits (ds ++ r) = (ds, r) := by
  have hrest : r.takeWhile isDigit = [] ∧ r.dropWhile isDigit = r := by
    rcases hr.cases with rfl | ⟨b, s, rfl, rfl | rfl | rfl⟩
    · exact ⟨rfl, rfl⟩
    all_goals exact ⟨rfl, rfl⟩
  rw [digits, List.takeWhile_append_of_pos hds, List.dropWhile_append_of_pos hds, hrest.1, hrest.2, List.append_nil]

theorem fraction?_closes (hr : Closes r) : fraction? r = some ([], r) := by
  rcases hr.cases with rfl | ⟨b, s, rfl, rfl | rfl | rfl⟩
  · rfl
  all_goals rfl

theorem exponent?_closes (hr : Closes r) : exponent? r = some ([], r) := by
  rcases hr.cases with rfl | ⟨b, s, rfl, rfl | rfl | rfl⟩
  · rfl
  all_goals rfl

theorem whole?_ofNat (n : Nat) (hr : Closes r) :
    whole? (Utf8.encode (Text.ofNat n) ++ r) = some (Utf8.encode (Text.ofNat n), r) := by
  rw [whole?, digits_append (fun b => isDigit_of_mem_encode) hr]
  rcases encode_ofNat_cases n with h | ⟨b, s, h, hb⟩
  · rw [h]
    rfl
  · rw [h]
    split
    · simp_all
    · simp_all
    · rfl

theorem encode_ofNat_eq_cons (n : Nat) : ∃ b s, Utf8.encode (Text.ofNat n) = b :: s ∧ isDigit b = true := by
  cases h : Utf8.encode (Text.ofNat n) with
  | nil => rcases encode_ofNat_cases n with h' | ⟨b, t, h', -⟩ <;> simp [h] at h'
  | cons b s => exact ⟨b, s, rfl, isDigit_of_mem_encode (n := n) (h ▸ List.mem_cons_self)⟩

theorem encode_ofNat_append_ne (n : Nat) (r s : Bytes) : Utf8.encode (Text.ofNat n) ++ r ≠ 45 :: s := by
  obtain ⟨b, t, hb, hdigit⟩ := encode_ofNat_eq_cons n
  rw [hb]
  intro h
  obtain rfl := (List.cons.inj h).1
  cases hdigit

theorem number?_ofInt (n : Int) (hr : Closes r) :
    number? (Utf8.encode (Text.ofInt n) ++ r) = some (Utf8.encode (Text.ofInt n), r) := by
  rw [Text.ofInt]
  split
  · have hminus : Utf8.encode ('-' :: Text.ofNat n.natAbs) = 45 :: Utf8.encode (Text.ofNat n.natAbs) := rfl
    rw [hminus, List.cons_append, number?]
    simp only [whole?_ofNat n.natAbs hr, Option.bind_eq_bind, Option.bind_some, fraction?_closes hr,
      exponent?_closes hr, Option.pure_def]
    simp
  · rw [number?]
    · simp only [whole?_ofNat n.natAbs hr, Option.bind_eq_bind, Option.bind_some, fraction?_closes hr,
        exponent?_closes hr, Option.pure_def]
      simp
    · exact encode_ofNat_append_ne n.natAbs r

theorem number?_zero (hr : Closes r) :
    number? (Utf8.encode (Binary64.zero true).print ++ r) = some (Utf8.encode (Binary64.zero true).print, r) := by
  have hprint : Utf8.encode (Binary64.zero true).print = [45, 48, 46, 48] := rfl
  have hwhole : whole? (48 :: 46 :: 48 :: ([] ++ r)) = some ([48], 46 :: 48 :: ([] ++ r)) := rfl
  have hdigit : ∀ b ∈ ([48] : Bytes), isDigit b = true := List.forall_mem_singleton.mpr rfl
  have hdigits : digits (48 :: ([] ++ r)) = ([48], r) := digits_append hdigit hr
  have hfrac : fraction? (46 :: 48 :: ([] ++ r)) = some ([46, 48], r) := by rw [fraction?, hdigits]
  rw [hprint]
  simp only [List.cons_append, number?, hwhole, Option.bind_eq_bind, Option.bind_some, hfrac, exponent?_closes hr]
  rfl

theorem digits_ofNat (n : Nat) : digits (Utf8.encode (Text.ofNat n)) = (Utf8.encode (Text.ofNat n), []) := by
  have hdigit (b) (hb : b ∈ Utf8.encode (Text.ofNat n)) := isDigit_of_mem_encode hb
  have happend := digits_append hdigit Closes.nil
  rw [List.append_nil] at happend
  exact happend

theorem numberValue?_ofInt {n : Int} (h : Word.IsInteger n) :
    numberValue? (Utf8.encode (Text.ofInt n)) = some (.int n) := by
  obtain ⟨hlow, hhigh⟩ := h
  have hall : ∀ b ∈ Utf8.encode (Text.ofNat n.natAbs), (isDigit b || b == 45) = true := by
    intro b hb
    rw [isDigit_of_mem_encode hb, Bool.true_or]
  rw [Text.ofInt]
  split
  · have hminus : Utf8.encode ('-' :: Text.ofNat n.natAbs) = 45 :: Utf8.encode (Text.ofNat n.natAbs) := rfl
    rw [hminus, numberValue?]
    simp only [digits_ofNat, natOf_encode]
    rw [if_pos]
    · simp only [if_true, Option.some.injEq, Json.int.injEq]
      omega
    · simp only [List.all_cons, List.all_eq_true.mpr hall, if_true, Bool.and_eq_true, decide_eq_true_eq]
      exact ⟨⟨rfl, trivial⟩, by omega, by omega⟩
  · rw [numberValue?]
    · simp only [digits_ofNat, natOf_encode, Bool.false_eq_true, if_false]
      rw [if_pos]
      · simp only [Option.some.injEq, Json.int.injEq]
        omega
      · simp only [List.all_eq_true.mpr hall, Bool.true_and, decide_eq_true_eq]
        omega
    · intro r hr
      rw [← List.append_nil (Utf8.encode _)] at hr
      exact encode_ofNat_append_ne _ _ _ hr

theorem numberValue?_zero :
    numberValue? (Utf8.encode (Binary64.zero true).print) = some (.real (Binary64.zero true)) := by
  decide +kernel

theorem numberValue?_cases {spelling : Bytes} {j : Json} (h : numberValue? spelling = some j) :
    (∃ n, j = .int n ∧ Word.IsInteger n) ∨ ∃ x, j = .real x := by
  have hread {plain negative : Bool} {m : Nat} {x : Option Binary64}
      (h : (if (plain && if negative = true then decide (0 < m) && decide (m ≤ Word.half)
          else decide (m < Word.size)) = true
        then some (Json.int (if negative = true then -m else m)) else x.map Json.real) = some j) :
      (∃ n, j = .int n ∧ Word.IsInteger n) ∨ ∃ x, j = .real x := by
    rcases ite_eq_iff.mp h with ⟨hfits, h⟩ | ⟨-, h⟩
    · refine .inl ⟨_, (Option.some.inj h).symm, ?_⟩
      have hhalf : Word.half < Word.size := by decide
      cases negative with
      | true =>
          simp only [if_true, Bool.and_eq_true, decide_eq_true_eq] at hfits ⊢
          exact ⟨by omega, by omega⟩
      | false =>
          simp only [Bool.false_eq_true, if_false, Bool.and_eq_true, decide_eq_true_eq] at hfits ⊢
          exact ⟨by omega, by omega⟩
    · obtain ⟨y, -, hy⟩ := Option.map_eq_some_iff.mp h
      exact .inr ⟨y, hy.symm⟩
  unfold numberValue? at h
  simp only at h
  split at h
  · exact hread h
  · exact hread h

end Closed

end Raw

end BearerGate
