import Mathlib.Data.Nat.Count

namespace BearerGate

variable {α β : Type} {p : Nat → Prop} [DecidablePred p] {g : α → β} {xs : List α} {ys : List β}
  {n : Nat}

/-- The second list has the images of those entries of the first one whose places are picked. -/
structure Picked (p : Nat → Prop) [DecidablePred p] (g : α → β) (xs : List α) (ys : List β) : Prop where
  length : ys.length = Nat.count p xs.length
  get : ∀ n, p n → ys[Nat.count p n]? = xs[n]?.map g

namespace Picked

theorem nil : Picked p g [] [] := ⟨(Nat.count_zero p).symm, fun _ _ => rfl⟩

theorem lt_iff (h : Picked p g xs ys) (hn : p n) : Nat.count p n < ys.length ↔ n < xs.length := by
  rw [h.length]
  exact ⟨Nat.lt_of_count_lt_count, Nat.count_strict_mono hn⟩

theorem append_of_pos (h : Picked p g xs ys) (hp : p xs.length) (x : α) :
    Picked p g (xs ++ [x]) (ys ++ [g x]) where
  length := by simp [Nat.count_succ, hp, h.length]
  get n hn := by
    rcases Nat.lt_trichotomy n xs.length with hlt | rfl | hgt
    · rw [List.getElem?_append_left hlt, List.getElem?_append_left ((h.lt_iff hn).mpr hlt), h.get n hn]
    · rw [← h.length, List.getElem?_concat_length, List.getElem?_concat_length, Option.map_some]
    · have hcount := Nat.count_strict_mono hp hgt
      rw [← h.length] at hcount
      rw [List.getElem?_eq_none (by simpa using Nat.succ_le_of_lt hcount),
        List.getElem?_eq_none (by simpa using Nat.succ_le_of_lt hgt), Option.map_none]

theorem append_of_neg (h : Picked p g xs ys) (hp : ¬p xs.length) (x : α) : Picked p g (xs ++ [x]) ys where
  length := by simp [Nat.count_succ, hp, h.length]
  get n hn := by
    rw [h.get n hn]
    rcases Nat.lt_trichotomy n xs.length with hlt | rfl | hgt
    · rw [List.getElem?_append_left hlt]
    · exact absurd hn hp
    · rw [List.getElem?_eq_none hgt.le, List.getElem?_eq_none (by simpa using Nat.succ_le_of_lt hgt)]

theorem set_of_pos (h : Picked p g xs ys) (hp : p n) (x : α) :
    Picked p g (xs.set n x) (ys.set (Nat.count p n) (g x)) where
  length := by rw [List.length_set, List.length_set, h.length]
  get m hm := by
    by_cases hmn : n = m
    · subst hmn
      by_cases hlt : n < xs.length
      · rw [List.getElem?_set_self hlt, List.getElem?_set_self ((h.lt_iff hp).mpr hlt), Option.map_some]
      · rw [List.set_eq_of_length_le (Nat.le_of_not_lt hlt),
          List.set_eq_of_length_le (Nat.le_of_not_lt (mt (h.lt_iff hp).mp hlt)), h.get n hp]
    · have hcount : Nat.count p n ≠ Nat.count p m := fun he => hmn (Nat.count_injective hp hm he)
      rw [List.getElem?_set_ne hmn, List.getElem?_set_ne hcount, h.get m hm]

theorem set_of_neg (h : Picked p g xs ys) (hp : ¬p n) (x : α) : Picked p g (xs.set n x) ys where
  length := by rw [List.length_set, h.length]
  get m hm := by
    have hmn : n ≠ m := fun he => hp (he ▸ hm)
    rw [List.getElem?_set_ne hmn, h.get m hm]

end Picked

end BearerGate
