import BearerGate.Proofs.Text.Utf8
import Mathlib.Data.List.Forall2

namespace BearerGate.Percent

def StartsHex (b : Bytes) : Prop := ∃ h l r, b = h :: l :: r ∧ isHexDigit h = true ∧ isHexDigit l = true

theorem unescape_escape {h l : UInt8} (hh : isHexDigit h = true) (hl : isHexDigit l = true) (r : Bytes) :
    unescape (37 :: h :: l :: r) = (16 * hexDigit h + hexDigit l) :: unescape r := by
  rw [unescape, hh, hl]
  rfl

theorem unescape_cons {a : UInt8} {r : Bytes} (h : a = 37 → ¬StartsHex r) :
    unescape (a :: r) = a :: unescape r := by
  by_cases hlong : ∃ x y s, a = 37 ∧ r = x :: y :: s
  · obtain ⟨x, y, s, rfl, rfl⟩ := hlong
    have hnot : (isHexDigit x && isHexDigit y) = false := by
      rw [Bool.eq_false_iff, ne_eq, Bool.and_eq_true]
      exact fun hxy => h rfl ⟨x, y, s, rfl, hxy⟩
    rw [unescape, hnot]
    rfl
  · rw [unescape]
    exact fun x y s ha hr => hlong ⟨x, y, s, ha, hr⟩

/-- Without a `%` nothing of a text is an escape, nor a part of one that ends behind it. -/
theorem unescape_append {x : Bytes} (h : 37 ∉ x) (y : Bytes) : unescape (x ++ y) = x ++ unescape y := by
  induction x with
  | nil => rfl
  | cons a x ih =>
      rw [List.mem_cons, not_or] at h
      rw [List.cons_append, unescape_cons fun ha => absurd ha.symm h.1, ih h.2, List.cons_append]

theorem StartsHex.of_append {x y : Bytes} (h : StartsHex (x ++ 47 :: y)) : StartsHex x := by
  obtain ⟨h, l, r, he, hh, hl⟩ := h
  have hslash : isHexDigit 47 = false := by decide
  match x with
  | [] =>
      simp only [List.nil_append, List.cons.injEq] at he
      rw [← he.1, hslash] at hh
      cases hh
  | [_] =>
      simp only [List.cons_append, List.nil_append, List.cons.injEq] at he
      rw [← he.2.1, hslash] at hl
      cases hl
  | a :: b :: s =>
      simp only [List.cons_append, List.cons.injEq] at he
      obtain ⟨rfl, rfl, -⟩ := he
      exact ⟨a, b, s, rfl, hh, hl⟩

theorem unescape_append_slash (x y : Bytes) : unescape (x ++ 47 :: y) = unescape x ++ 47 :: unescape y := by
  have hplain {a : UInt8} {r : Bytes} (ha : a = 37 → ¬StartsHex r)
      (ih : unescape (r ++ 47 :: y) = unescape r ++ 47 :: unescape y) :
      unescape (a :: r ++ 47 :: y) = unescape (a :: r) ++ 47 :: unescape y := by
    rw [List.cons_append, unescape_cons fun he => mt StartsHex.of_append (ha he), ih, unescape_cons ha,
      List.cons_append]
  induction x using unescape.induct with
  | case1 h l r hhex ih =>
      rw [Bool.and_eq_true] at hhex
      rw [List.cons_append, List.cons_append, List.cons_append, unescape_escape hhex.1 hhex.2, ih,
        unescape_escape hhex.1 hhex.2, List.cons_append]
  | case2 h l r hhex ih =>
      refine hplain (fun _ => ?_) ih
      rintro ⟨_, _, _, ⟨⟩, hh, hl⟩
      exact hhex (by rw [hh, hl]; rfl)
  | case3 a r hshort ih =>
      refine hplain (fun ha => ?_) ih
      rintro ⟨h, l, s, hr, -⟩
      exact hshort h l s ha hr
  | case4 => exact unescape_cons fun h => absurd h (by decide)

theorem decode_append {s : Text} (h : '%' ∉ s) (t : Text) : decode (s ++ t) = Utf8.encode s ++ decode t := by
  rw [decode, Utf8.encode_append]
  exact unescape_append (fun hmem => h (Utf8.mem_of_mem_encode (by decide) hmem)) _

theorem decode_of_not_mem {t : Text} (h : '%' ∉ t) : decode t = Utf8.encode t := by
  rw [← List.append_nil t, decode_append h, List.append_nil]
  exact List.append_nil _

theorem decode_append_slash (a b : Text) : decode (a ++ '/' :: b) = decode a ++ 47 :: decode b := by
  rw [decode, Utf8.encode_append, Utf8.encode_cons]
  exact unescape_append_slash _ _

def IsEscape (b : UInt8) (e : Text) : Prop :=
  ∃ h l, e = ['%', h, l] ∧ Text.hexValue? h = some (b.toNat / 16) ∧ Text.hexValue? l = some (b.toNat % 16)

theorem toNat_lt_of_hexValue? {c : Char} {n : Nat} (h : Text.hexValue? c = some n) : c.toNat < 0x80 := by
  have hle {d : Char} (hd : d.toNat < 0x80) (hc : c ≤ d) : c.toNat < 0x80 :=
    Nat.lt_of_le_of_lt (UInt32.le_iff_toNat_le.mp hc) hd
  rw [Text.hexValue?] at h
  split at h
  · rename_i hdigit
    rw [Char.isDigit, Bool.and_eq_true, decide_eq_true_eq, decide_eq_true_eq] at hdigit
    exact hle (d := '9') (by decide) hdigit.2
  split at h
  · rename_i hlow
    rw [Bool.and_eq_true, decide_eq_true_eq, decide_eq_true_eq] at hlow
    exact hle (d := 'f') (by decide) hlow.2
  split at h
  · rename_i hhigh
    rw [Bool.and_eq_true, decide_eq_true_eq, decide_eq_true_eq] at hhigh
    exact hle (d := 'F') (by decide) hhigh.2
  · cases h

theorem hexDigit_of_hexValue? {c : Char} {n : Nat} (h : Text.hexValue? c = some n) :
    isHexDigit c.toNat.toUInt8 = true ∧ (hexDigit c.toNat.toUInt8).toNat = n := by
  have hall : ∀ k < 0x80, ∀ n ∈ Text.hexValue? (Char.ofNat k),
      isHexDigit k.toUInt8 = true ∧ (hexDigit k.toUInt8).toNat = n := by
    decide
  exact hall c.toNat (toNat_lt_of_hexValue? h) n (by rwa [Char.ofNat_toNat])

theorem decode_escape {b : UInt8} {e : Text} (h : IsEscape b e) (t : Text) :
    decode (e ++ t) = b :: decode t := by
  obtain ⟨x, y, rfl, hx, hy⟩ := h
  obtain ⟨hxhex, hxvalue⟩ := hexDigit_of_hexValue? hx
  obtain ⟨hyhex, hyvalue⟩ := hexDigit_of_hexValue? hy
  have hbytes : Utf8.encode (['%', x, y] ++ t) = 37 :: x.toNat.toUInt8 :: y.toNat.toUInt8 :: Utf8.encode t := by
    simp only [List.cons_append, List.nil_append, Utf8.encode_cons,
      Utf8.encodeChar_ascii (toNat_lt_of_hexValue? hx), Utf8.encodeChar_ascii (toNat_lt_of_hexValue? hy)]
    rfl
  have hb : 16 * hexDigit x.toNat.toUInt8 + hexDigit y.toNat.toUInt8 = b := by
    have hlt := b.toNat_lt
    have hsixteen : (16 : UInt8).toNat = 16 := rfl
    apply UInt8.toNat_inj.mp
    rw [UInt8.toNat_add, UInt8.toNat_mul, hxvalue, hyvalue, hsixteen]
    omega
  rw [decode, hbytes, unescape_escape hxhex hyhex, hb, decode]

theorem decode_escapes {bytes : Bytes} {escapes : List Text} (h : List.Forall₂ IsEscape bytes escapes)
    (t : Text) : decode (escapes.flatten ++ t) = bytes ++ decode t := by
  induction h with
  | nil => rfl
  | cons he _ ih => rw [List.flatten_cons, List.append_assoc, decode_escape he, ih, List.cons_append]

/-- The second text is the first one with some characters written as the escapes of their bytes. -/
inductive Disguised : Text → Text → Prop
  | nil : Disguised [] []
  | plain (c : Char) {r r' : Text} : Disguised r r' → Disguised (c :: r) (c :: r')
  | escaped (c : Char) (escapes : List Text) {r r' : Text} :
      List.Forall₂ IsEscape (Utf8.encodeChar c) escapes → Disguised r r' →
        Disguised (c :: r) (escapes.flatten ++ r')

theorem Disguised.decode_eq {r r' : Text} (h : Disguised r r') (hplain : '%' ∉ r) : decode r' = Utf8.encode r := by
  induction h with
  | nil => rfl
  | plain c _ ih =>
      rw [List.mem_cons, not_or] at hplain
      rw [← List.singleton_append, decode_append (by simpa using hplain.1), ih hplain.2, ← Utf8.encode_append,
        List.singleton_append]
  | escaped c escapes hbytes _ ih =>
      rw [decode_escapes hbytes, ih (mt (List.mem_cons_of_mem c) hplain), Utf8.encode_cons]

end BearerGate.Percent
