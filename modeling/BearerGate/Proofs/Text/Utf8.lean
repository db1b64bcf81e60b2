import BearerGate.Text.Utf8

namespace BearerGate.Utf8

theorem toNat_toUInt8 {n : Nat} (h : n < 256) : n.toUInt8.toNat = n := by
  simp only [UInt8.toNat_ofNat']
  omega

theorem isTail_tail (n : Nat) : isTail (0x80 + n % 0x40).toUInt8 = true := by
  have h := toNat_toUInt8 (n := 0x80 + n % 0x40) (by omega)
  simp only [isTail, UInt8.le_iff_toNat_le, UInt8.lt_iff_toNat_lt, h]
  simp
  omega

theorem low_tail (n : Nat) : low (0x80 + n % 0x40).toUInt8 = n % 0x40 := by
  rw [low, toNat_toUInt8 (by omega)]
  omega

theorem decode?_encodeChar (c : Char) (r : Bytes) :
    decode? (encodeChar c ++ r) = (decode? r).map (c :: ·) := by
  have hvalid : c.toNat < 0xD800 ∨ 0xDFFF < c.toNat ∧ c.toNat < 0x110000 := c.valid
  rw [encodeChar]
  split
  · rename_i h
    have ha := toNat_toUInt8 (n := c.toNat) (by omega)
    simp only [List.cons_append, List.nil_append]
    rw [decode?.eq_def]
    simp only [UInt8.lt_iff_toNat_lt, ha, Char.ofNat_toNat]
    rw [if_pos (by simpa using h)]
  split
  · rename_i h h'
    have ha := toNat_toUInt8 (n := 0xC0 + c.toNat / 0x40) (by omega)
    have hc : (0xC0 + c.toNat / 0x40) % 0x20 * 0x40 + c.toNat % 0x40 = c.toNat := by omega
    simp only [List.cons_append, List.nil_append]
    rw [decode?.eq_def]
    simp only [UInt8.lt_iff_toNat_lt, UInt8.le_iff_toNat_le, ha, isTail_tail, low_tail, Bool.and_eq_true,
      decide_eq_true_eq, if_true, hc, Char.ofNat_toNat]
    rw [if_neg (by simp; omega), if_pos (by simp; omega)]
  split
  · rename_i h h' h''
    have ha := toNat_toUInt8 (n := 0xE0 + c.toNat / 0x1000) (by omega)
    have hc : (0xE0 + c.toNat / 0x1000) % 0x10 * 0x1000 + c.toNat / 0x40 % 0x40 * 0x40 + c.toNat % 0x40 =
        c.toNat := by omega
    simp only [List.cons_append, List.nil_append]
    rw [decode?.eq_def]
    simp only [UInt8.lt_iff_toNat_lt, UInt8.le_iff_toNat_le, ha, isTail_tail, low_tail, Bool.and_eq_true,
      decide_eq_true_eq, hc, Char.ofNat_toNat]
    rw [if_neg (by simp; omega), if_neg (by simp), if_pos (by simp; omega), if_pos (by simp; omega)]
  · rename_i h h' h''
    have ha := toNat_toUInt8 (n := 0xF0 + c.toNat / 0x40000) (by omega)
    have hc : (0xF0 + c.toNat / 0x40000) % 0x08 * 0x40000 + c.toNat / 0x1000 % 0x40 * 0x1000 +
        c.toNat / 0x40 % 0x40 * 0x40 + c.toNat % 0x40 = c.toNat := by omega
    simp only [List.cons_append, List.nil_append]
    rw [decode?.eq_def]
    simp only [UInt8.lt_iff_toNat_lt, UInt8.le_iff_toNat_le, ha, isTail_tail, low_tail, Bool.and_eq_true,
      decide_eq_true_eq, hc, Char.ofNat_toNat]
    rw [if_neg (by simp; omega), if_neg (by simp; omega), if_neg (by simp), if_pos (by simp; omega),
      if_pos (by simp; omega)]

theorem encode_cons (c : Char) (t : Text) : encode (c :: t) = encodeChar c ++ encode t := rfl

theorem encode_append (s t : Text) : encode (s ++ t) = encode s ++ encode t := List.flatMap_append

theorem decode?_encode (t : Text) : decode? (encode t) = some t := by
  induction t with
  | nil => rfl
  | cons c t ih =>
      rw [encode_cons, decode?_encodeChar, ih]
      rfl

theorem encode_inj {s t : Text} (h : encode s = encode t) : s = t :=
  Option.some.inj (by rw [← decode?_encode s, h, decode?_encode])

theorem toNat_ofNat {n : Nat} (h : n < 0xD800 ∨ 0xDFFF < n ∧ n < 0x110000) : (Char.ofNat n).toNat = n := by
  have hvalid : n.isValidChar := h
  rw [Char.ofNat, dif_pos hvalid]
  rfl

theorem toUInt8_of_eq {n : Nat} {b : UInt8} (h : n = b.toNat) : n.toUInt8 = b := by
  rw [h]
  exact UInt8.ofNat_toNat

theorem isTail_iff {b : UInt8} : isTail b = true ↔ 0x80 ≤ b.toNat ∧ b.toNat < 0xC0 := by
  simp [isTail, UInt8.le_iff_toNat_le, UInt8.lt_iff_toNat_lt]

theorem encodeChar_one {a : UInt8} (ha : a < 0x80) : encodeChar (Char.ofNat a.toNat) = [a] := by
  have ha' : a.toNat < 0x80 := UInt8.lt_iff_toNat_lt.mp ha
  rw [encodeChar, toNat_ofNat (by omega), if_pos ha', toUInt8_of_eq rfl]

theorem encodeChar_two {a b : UInt8} (ha : 0xC2 ≤ a) (ha' : a < 0xE0) (hb : isTail b = true) :
    encodeChar (Char.ofNat (a.toNat % 0x20 * 0x40 + low b)) = [a, b] := by
  have h : 0xC2 ≤ a.toNat := UInt8.le_iff_toNat_le.mp ha
  have h' : a.toNat < 0xE0 := UInt8.lt_iff_toNat_lt.mp ha'
  have htail := isTail_iff.mp hb
  rw [low, encodeChar, toNat_ofNat (by omega), if_neg (by omega), if_pos (by omega),
    toUInt8_of_eq (b := a) (by omega), toUInt8_of_eq (b := b) (by omega)]

theorem encodeChar_three {a b c : UInt8} (ha : 0xE0 ≤ a) (ha' : a < 0xF0) (hb : isTail b = true)
    (hc : isTail c = true) {n : Nat} (hn : n = a.toNat % 0x10 * 0x1000 + low b * 0x40 + low c) (hlong : 0x800 ≤ n)
    (hplain : ¬(0xD800 ≤ n ∧ n < 0xE000)) : encodeChar (Char.ofNat n) = [a, b, c] := by
  have h : 0xE0 ≤ a.toNat := UInt8.le_iff_toNat_le.mp ha
  have h' : a.toNat < 0xF0 := UInt8.lt_iff_toNat_lt.mp ha'
  have htailb := isTail_iff.mp hb
  have htailc := isTail_iff.mp hc
  rw [low, low] at hn
  rw [encodeChar, toNat_ofNat (by omega), if_neg (by omega), if_neg (by omega), if_pos (by omega),
    toUInt8_of_eq (b := a) (by omega), toUInt8_of_eq (b := b) (by omega), toUInt8_of_eq (b := c) (by omega)]

theorem encodeChar_four {a b c d : UInt8} (ha : 0xF0 ≤ a) (ha' : a < 0xF5) (hb : isTail b = true)
    (hc : isTail c = true) (hd : isTail d = true) {n : Nat}
    (hn : n = a.toNat % 0x08 * 0x40000 + low b * 0x1000 + low c * 0x40 + low d) (hlong : 0x10000 ≤ n)
    (hlast : n < 0x110000) : encodeChar (Char.ofNat n) = [a, b, c, d] := by
  have h : 0xF0 ≤ a.toNat := UInt8.le_iff_toNat_le.mp ha
  have h' : a.toNat < 0xF5 := UInt8.lt_iff_toNat_lt.mp ha'
  have htailb := isTail_iff.mp hb
  have htailc := isTail_iff.mp hc
  have htaild := isTail_iff.mp hd
  rw [low, low, low] at hn
  rw [encodeChar, toNat_ofNat (by omega), if_neg (by omega), if_neg (by omega), if_neg (by omega),
    toUInt8_of_eq (b := a) (by omega), toUInt8_of_eq (b := b) (by omega), toUInt8_of_eq (b := c) (by omega),
    toUInt8_of_eq (b := d) (by omega)]

/-- Only what a text is encoded as can be read. -/
theorem encode_of_decode? {b : Bytes} {t : Text} (h : decode? b = some t) : encode t = b := by
  fun_induction decode? b generalizing t with
  | case1 =>
      obtain rfl := Option.some.inj h
      rfl
  | case2 a r ha ih =>
      obtain ⟨u, hu, rfl⟩ := Option.map_eq_some_iff.mp h
      rw [encode_cons, encodeChar_one ha, ih hu, List.singleton_append]
  | case3 a ha hlead b r hb ih =>
      obtain ⟨u, hu, rfl⟩ := Option.map_eq_some_iff.mp h
      simp only [Bool.and_eq_true, decide_eq_true_eq] at hlead
      rw [encode_cons, encodeChar_two hlead.1 hlead.2 hb, ih hu, List.cons_append, List.singleton_append]
  | case6 a _ _ hlead b c r n hn =>
      rename_i ih
      obtain ⟨u, hu, rfl⟩ := Option.map_eq_some_iff.mp h
      simp only [Bool.and_eq_true, decide_eq_true_eq, Bool.not_eq_true', Bool.and_eq_false_imp,
        decide_eq_false_iff_not] at hlead hn
      obtain ⟨⟨⟨hb, hc⟩, hlong⟩, hplain⟩ := hn
      rw [encode_cons, encodeChar_three hlead.1 hlead.2 hb hc rfl hlong (by omega), ih hu]
      rfl
  | case9 a _ _ _ hlead b c d r n hn =>
      rename_i ih
      obtain ⟨u, hu, rfl⟩ := Option.map_eq_some_iff.mp h
      simp only [Bool.and_eq_true, decide_eq_true_eq] at hlead hn
      obtain ⟨⟨⟨⟨hb, hc⟩, hd⟩, hlong⟩, hlast⟩ := hn
      rw [encode_cons, encodeChar_four hlead.1 hlead.2 hb hc hd rfl hlong hlast, ih hu]
      rfl
  | case4 | case5 | case7 | case8 | case10 | case11 | case12 => cases h

theorem decode?_eq_some_iff {b : Bytes} {t : Text} : decode? b = some t ↔ b = encode t :=
  ⟨fun h => (encode_of_decode? h).symm, fun h => h ▸ decode?_encode t⟩

theorem decode?_eq_none_iff {b : Bytes} : decode? b = none ↔ ∀ t, b ≠ encode t := by
  rw [Option.eq_none_iff_forall_ne_some]
  exact forall_congr' fun t => not_congr decode?_eq_some_iff

theorem encodeChar_ascii {c : Char} (hc : c.toNat < 0x80) : encodeChar c = [c.toNat.toUInt8] := by
  rw [encodeChar, if_pos hc]

theorem le_of_mem_encodeChar {c : Char} (hc : ¬c.toNat < 0x80) {b : UInt8} (hb : b ∈ encodeChar c) :
    0x80 ≤ b.toNat := by
  have hvalid : c.toNat < 0xD800 ∨ 0xDFFF < c.toNat ∧ c.toNat < 0x110000 := c.valid
  have hbyte {n : Nat} (h : 0x80 ≤ n) (h' : n < 256) (he : b = n.toUInt8) : 0x80 ≤ b.toNat := by
    rw [he, toNat_toUInt8 h']
    exact h
  rw [encodeChar, if_neg hc] at hb
  split at hb
  · simp only [List.mem_cons, List.not_mem_nil, or_false] at hb
    rcases hb with hb | hb
    all_goals exact hbyte (by omega) (by omega) hb
  split at hb
  · simp only [List.mem_cons, List.not_mem_nil, or_false] at hb
    rcases hb with hb | hb | hb
    all_goals exact hbyte (by omega) (by omega) hb
  · simp only [List.mem_cons, List.not_mem_nil, or_false] at hb
    rcases hb with hb | hb | hb | hb
    all_goals exact hbyte (by omega) (by omega) hb

theorem eq_of_mem_encodeChar {c d : Char} (hc : c.toNat < 0x80) (h : c.toNat.toUInt8 ∈ encodeChar d) : d = c := by
  have hbyte := toNat_toUInt8 (n := c.toNat) (by omega)
  by_cases hd : d.toNat < 0x80
  · rw [encodeChar_ascii hd, List.mem_singleton] at h
    have hnat : d.toNat = c.toNat := by
      rw [← hbyte, h, toNat_toUInt8 (by omega)]
    rw [← Char.ofNat_toNat d, hnat, Char.ofNat_toNat]
  · have := le_of_mem_encodeChar hd h
    omega

theorem mem_of_mem_encode {c : Char} (hc : c.toNat < 0x80) {t : Text} (h : c.toNat.toUInt8 ∈ encode t) :
    c ∈ t := by
  obtain ⟨d, hd, hmem⟩ := List.mem_flatMap.mp h
  exact eq_of_mem_encodeChar hc hmem ▸ hd

theorem exists_of_encode_eq {t : Text} {x y : Bytes} {c : Char} (hc : c.toNat < 0x80)
    (h : encode t = x ++ c.toNat.toUInt8 :: y) : ∃ u v, t = u ++ c :: v ∧ x = encode u ∧ y = encode v := by
  induction t generalizing x with
  | nil => simp [encode] at h
  | cons d t ih =>
      rw [encode_cons, List.append_eq_append_iff] at h
      have hlater {as : Bytes} (hx : x = encodeChar d ++ as) (ht : encode t = as ++ c.toNat.toUInt8 :: y) :
          ∃ u v, d :: t = u ++ c :: v ∧ x = encode u ∧ y = encode v := by
        obtain ⟨u, v, rfl, rfl, rfl⟩ := ih ht
        exact ⟨d :: u, v, rfl, hx, rfl⟩
      obtain ⟨as, hx, ht⟩ | ⟨bs, hd, hy⟩ := h
      · exact hlater hx ht
      · rcases List.cons_eq_append_iff.mp hy with ⟨rfl, ht⟩ | ⟨bs', rfl, rfl⟩
        · rw [List.append_nil] at hd
          exact hlater (by rw [hd, List.append_nil]) ht
        · obtain rfl : d = c := eq_of_mem_encodeChar hc (by rw [hd]; simp)
          rw [encodeChar_ascii hc, List.singleton_eq_append_iff] at hd
          simp only [List.cons.injEq, reduceCtorEq, and_false, or_false] at hd
          obtain ⟨rfl, -, rfl⟩ := hd
          exact ⟨[], t, rfl, rfl, rfl⟩

theorem decode?_append_cons {c : Char} (hc : c.toNat < 0x80) (x y : Bytes) :
    decode? (x ++ c.toNat.toUInt8 :: y) = (decode? x).bind fun u => (decode? y).map (u ++ c :: ·) := by
  apply Option.ext
  intro t
  simp only [decode?_eq_some_iff, Option.bind_eq_some_iff, Option.map_eq_some_iff]
  constructor
  · intro h
    obtain ⟨u, v, rfl, rfl, rfl⟩ := exists_of_encode_eq hc h.symm
    exact ⟨u, rfl, v, rfl, rfl⟩
  · rintro ⟨u, rfl, v, rfl, rfl⟩
    rw [encode_append, encode_cons, encodeChar_ascii hc, List.singleton_append]

end BearerGate.Utf8
