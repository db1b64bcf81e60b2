import BearerGate.Crypto.Ed25519
import Mathlib.Tactic.Ring
import Mathlib.Data.Nat.ModEq

namespace BearerGate.Crypto

theorem powMod_eq (m b e : Nat) : powMod m b e = b ^ e % m := by
  induction e using Nat.strong_induction_on generalizing b with
  | _ e ih =>
      rw [powMod]
      split
      · rename_i he
        rw [he, pow_zero]
      · rename_i he
        have hhalf := ih (e / 2) (by omega) (b * b % m)
        have hsquare : (b * b % m) ^ (e / 2) % m = b ^ (2 * (e / 2)) % m := by
          rw [← Nat.pow_mod, pow_mul, sq]
        simp only [hhalf, hsquare]
        split
        · rename_i hodd
          have he : e = 2 * (e / 2) + 1 := by omega
          conv_rhs => rw [he, pow_succ]
          rw [Nat.mod_mul_mod]
        · rename_i hodd
          have he : e = 2 * (e / 2) := by omega
          rw [← he]

namespace Ed25519

theorem two_le_p : 2 ≤ p := by decide

/-- Two is invertible modulo the prime, by Fermat's little theorem at this one base. -/
theorem two_pow_p_sub_one : 2 ^ (p - 1) % p = 1 := by
  rw [← powMod_eq]
  decide +kernel

def IsNeutral (a : Point) : Prop :=
  ∃ k, a = ⟨0, 2 ^ k % p, 2 ^ k % p, 0⟩

theorem IsNeutral.neutral : IsNeutral neutral :=
  ⟨0, by rw [pow_zero, Nat.mod_eq_of_lt two_le_p]; rfl⟩

theorem IsNeutral.add {a b : Point} (ha : IsNeutral a) (hb : IsNeutral b) : IsNeutral (add a b) := by
  obtain ⟨k, rfl⟩ := ha
  obtain ⟨l, rfl⟩ := hb
  have hsub (n : Nat) : subMod p n 0 = n % p := by
    rw [subMod, Nat.zero_mod, Nat.sub_zero, Nat.add_mod_right]
  have hself (n : Nat) : subMod p (n % p) (n % p) = 0 := by
    have hp : 0 < p := Nat.zero_lt_of_lt two_le_p
    rw [subMod, Nat.mod_mod, Nat.add_sub_cancel' (Nat.mod_lt n hp).le, Nat.mod_self]
  refine ⟨2 * (k + l + 1), ?_⟩
  simp only [Ed25519.add, hsub, hself, Nat.mod_mod, Nat.add_zero, Nat.mul_zero, Nat.zero_mul, Nat.zero_mod]
  have hmul : 2 ^ k % p * (2 ^ l % p) % p = 2 ^ (k + l) % p := by
    rw [← Nat.mul_mod, ← pow_add]
  have hdouble : 2 * (2 ^ k % p) * (2 ^ l % p) % p = 2 ^ (k + l + 1) % p := by
    rw [mul_assoc, Nat.mul_mod, hmul, ← Nat.mul_mod, pow_succ']
  have hsum : (2 ^ (k + l) % p + 2 ^ (k + l) % p) % p = 2 ^ (k + l + 1) % p := by
    rw [← Nat.add_mod, ← two_mul, pow_succ']
  have hsquare : 2 ^ (k + l + 1) % p * (2 ^ (k + l + 1) % p) % p = 2 ^ (2 * (k + l + 1)) % p := by
    rw [← Nat.mul_mod, ← pow_add, ← two_mul]
  rw [hmul, hdouble, Nat.mul_mod, hsum, Nat.mod_mod, hsquare]

theorem IsNeutral.combine {a b ab acc : Point} (hb : IsNeutral b) (n i : Nat) (h : IsNeutral acc) :
    IsNeutral (combine a b ab 0 n i acc) := by
  induction i generalizing acc with
  | zero => exact h
  | succ i ih =>
      rw [Ed25519.combine, Nat.zero_testBit]
      apply ih
      cases n.testBit i with
      | false => exact h.add h
      | true => exact (h.add h).add hb

theorem IsNeutral.encode_eq {a : Point} (h : IsNeutral a) : encode a = (ofNat 32 1).reverse := by
  obtain ⟨k, rfl⟩ := h
  have hinv : 2 ^ k % p * invMod p (2 ^ k % p) % p = 1 := by
    have hp : p - 2 + 1 = p - 1 := by
      have := two_le_p
      omega
    rw [invMod, powMod_eq, Nat.mod_mod, ← Nat.pow_mod, ← Nat.mul_mod, ← pow_succ', hp, ← pow_mul,
      mul_comm, pow_mul, Nat.pow_mod, two_pow_p_sub_one, one_pow, Nat.mod_eq_of_lt two_le_p]
  simp only [encode, hinv, Nat.zero_mul, Nat.zero_mod, Nat.add_zero]

def neutralKey : Bytes := 1 :: List.replicate 31 0

theorem encode_neutral {a : Point} (h : IsNeutral a) : encode a = neutralKey := by
  rw [h.encode_eq]
  decide

theorem decode?_neutralKey : decode? neutralKey = some neutral := by
  have hy : littleEndian neutralKey = 1 := by decide
  have hlength : neutralKey.length = 32 := by decide
  have hx : recoverX? 1 false = some 0 := by
    have hu : subMod p (1 * 1) 1 = 0 := by decide
    simp only [recoverX?, hu]
    simp
  have hodd : 1 / Nat.pow 2 255 % 2 = 0 := by decide
  have hmod : 1 % Nat.pow 2 255 = 1 := by decide
  have hp : 1 % p = 1 := Nat.mod_eq_of_lt two_le_p
  simp [decode?, hy, hlength, hodd, hmod, hx, ofCoordinates, hp, neutral]

/-- One signature fits every message when the key is the neutral point. -/
theorem verify_neutralKey (message : Bytes) :
    verify neutralKey message (neutralKey ++ List.replicate 32 0) = true := by
  have htake : (neutralKey ++ List.replicate 32 0).take 32 = neutralKey := by decide
  have hs : littleEndian ((neutralKey ++ List.replicate 32 0).drop 32) = 0 := by decide
  have hlength : (neutralKey ++ List.replicate 32 0).length = 64 := by decide
  have hneg : negate neutral = neutral := rfl
  have horder : ¬order ≤ 0 := by decide
  rw [verify, hlength, htake, hs, decode?_neutralKey]
  simp only [hneg]
  rw [encode_neutral (IsNeutral.neutral.combine _ _ IsNeutral.neutral)]
  simp [horder]

end Ed25519

end BearerGate.Crypto
