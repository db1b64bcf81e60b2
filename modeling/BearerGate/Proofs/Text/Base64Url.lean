import BearerGate.Proofs.Text.Parts
import BearerGate.Proofs.Text.Utf8
import BearerGate.Text.Base64Url

namespace BearerGate.Base64Url

open Utf8 (toUInt8_of_eq)

def letter (n : Nat) : Char :=
  if n < 26 then Char.ofNat (65 + n)
  else if n < 52 then Char.ofNat (71 + n)
  else if n < 62 then Char.ofNat (n - 4)
  else if n = 62 then '-'
  else '_'

def letters : Text := (List.range 64).map letter

def encode : Bytes → Text
  | [] => []
  | [a] => [letter (a.toNat / 4), letter (a.toNat % 4 * 16)]
  | [a, b] =>
    [letter (a.toNat / 4), letter (a.toNat % 4 * 16 + b.toNat / 16), letter (b.toNat % 16 * 4)]
  | a :: b :: c :: r =>
    letter (a.toNat / 4) :: letter (a.toNat % 4 * 16 + b.toNat / 16) ::
      letter (b.toNat % 16 * 4 + c.toNat / 64) :: letter (c.toNat % 64) :: encode r

theorem digit?_letter {n : Nat} (h : n < 64) : digit? (letter n) = some n := by
  have hall : ∀ n < 64, digit? (letter n) = some n := by decide
  exact hall n h

theorem decode?_encode (b : Bytes) : decode? (encode b) = some b := by
  induction b using encode.induct with
  | case1 => rfl
  | case2 a =>
      have := a.toNat_lt
      rw [encode, decode?, digit?_letter (by omega), digit?_letter (by omega)]
      simp only [Option.bind_eq_bind, Option.bind_some]
      rw [if_pos (by omega), toUInt8_of_eq (b := a) (by omega)]
  | case3 a b =>
      have := a.toNat_lt
      have := b.toNat_lt
      rw [encode, decode?, digit?_letter (by omega), digit?_letter (by omega), digit?_letter (by omega)]
      simp only [Option.bind_eq_bind, Option.bind_some]
      rw [if_pos (by omega), toUInt8_of_eq (b := a) (by omega), toUInt8_of_eq (b := b) (by omega)]
  | case4 a b c r ih =>
      have := a.toNat_lt
      have := b.toNat_lt
      have := c.toNat_lt
      rw [encode, decode?, digit?_letter (by omega), digit?_letter (by omega), digit?_letter (by omega),
        digit?_letter (by omega), ih]
      simp only [Option.bind_eq_bind, Option.bind_some]
      rw [toUInt8_of_eq (b := a) (by omega), toUInt8_of_eq (b := b) (by omega),
        toUInt8_of_eq (b := c) (by omega)]

theorem letter_mem (n : Nat) : letter n ∈ letters := by
  by_cases h : n < 64
  · exact List.mem_map.mpr ⟨n, List.mem_range.mpr h, rfl⟩
  · have hlast : letter n = '_' := by
      rw [letter, if_neg (by omega), if_neg (by omega), if_neg (by omega), if_neg (by omega)]
    rw [hlast]
    decide

theorem encode_subset (b : Bytes) : encode b ⊆ letters := by
  induction b using encode.induct with
  | case1 => exact List.nil_subset _
  | case2 | case3 => simp [encode, letter_mem]
  | case4 a b c r ih => simp [encode, letter_mem, ih]

theorem not_mem_encode {c : Char} (hc : c ∉ letters) (b : Bytes) : c ∉ encode b :=
  fun h => hc (encode_subset b h)

theorem encode_isSolid (b : Bytes) : (encode b).IsSolid := by
  have hletters : letters.IsSolid := by decide
  intro c hc
  exact hletters c (encode_subset b hc)

theorem digit?_of_decode? {t : Text} {b : Bytes} (h : decode? t = some b) {c : Char} (hc : c ∈ t) :
    (digit? c).isSome := by
  induction t using decode?.induct generalizing b with
  | case1 => cases hc
  | case2 a => cases h
  | case3 x y =>
      simp only [decode?, Option.bind_eq_bind, Option.bind_eq_some_iff] at h
      obtain ⟨m, hm, n, hn, -⟩ := h
      simp only [List.mem_cons, List.not_mem_nil, or_false] at hc
      rcases hc with rfl | rfl
      · exact Option.isSome_of_eq_some hm
      · exact Option.isSome_of_eq_some hn
  | case4 x y z =>
      simp only [decode?, Option.bind_eq_bind, Option.bind_eq_some_iff] at h
      obtain ⟨m, hm, n, hn, k, hk, -⟩ := h
      simp only [List.mem_cons, List.not_mem_nil, or_false] at hc
      rcases hc with rfl | rfl | rfl
      · exact Option.isSome_of_eq_some hm
      · exact Option.isSome_of_eq_some hn
      · exact Option.isSome_of_eq_some hk
  | case5 x y z w r ih =>
      simp only [decode?, Option.bind_eq_bind, Option.bind_eq_some_iff] at h
      obtain ⟨m, hm, n, hn, k, hk, l, hl, more, hmore, -⟩ := h
      simp only [List.mem_cons] at hc
      rcases hc with rfl | rfl | rfl | rfl | hc
      · exact Option.isSome_of_eq_some hm
      · exact Option.isSome_of_eq_some hn
      · exact Option.isSome_of_eq_some hk
      · exact Option.isSome_of_eq_some hl
      · exact ih hmore hc

theorem dropEndWhile_of_decode? {t : Text} {b : Bytes} (h : decode? t = some b) :
    Text.dropEndWhile (· = '=') t = t := by
  rw [Text.dropEndWhile_eq_rdropWhile, List.rdropWhile_eq_self_iff]
  intro hne hpadding
  have hdigit := digit?_of_decode? h (List.getLast_mem hne)
  rw [of_decide_eq_true hpadding] at hdigit
  exact absurd hdigit (by decide)

theorem encode_ne_nil {b : Bytes} (h : b ≠ []) : encode b ≠ [] := by
  cases b using encode.induct with
  | case1 => exact absurd rfl h
  | case2 | case3 | case4 => simp [encode]

end BearerGate.Base64Url
