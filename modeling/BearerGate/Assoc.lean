namespace BearerGate.Assoc

variable {α β : Type} [DecidableEq α]

def set (k : α) (v : β) : List (α × β) → List (α × β)
  | [] => [(k, v)]
  | (k', v') :: r => if k' = k then (k, v) :: r else (k', v') :: set k v r

/-- Enters the pairs one after the other, so that of a repeated key the last one counts. -/
def ofList (l : List (α × β)) : List (α × β) := l.foldl (fun m p => set p.1 p.2 m) []

def erase (k : α) (l : List (α × β)) : List (α × β) := l.filter fun p => p.1 ≠ k

theorem mem_of_mem_set {k : α} {v : β} {p : α × β} {l : List (α × β)} (h : p ∈ set k v l) :
    p = (k, v) ∨ p ∈ l := by
  induction l with
  | nil => exact .inl (List.mem_singleton.mp h)
  | cons q r ih =>
    by_cases hq : q.1 = k
    · rw [set, if_pos hq] at h
      exact (List.mem_cons.mp h).imp_right (List.mem_cons_of_mem q)
    · rw [set, if_neg hq] at h
      rcases List.mem_cons.mp h with rfl | h
      · exact .inr List.mem_cons_self
      · exact (ih h).imp_right (List.mem_cons_of_mem q)

theorem nodup_keys_set (k : α) (v : β) {l : List (α × β)} (h : (l.map Prod.fst).Nodup) :
    ((set k v l).map Prod.fst).Nodup := by
  induction l with
  | nil => simp [set]
  | cons q r ih =>
    obtain ⟨hq, hr⟩ := List.nodup_cons.mp h
    by_cases hk : q.1 = k
    · rw [set, if_pos hk, ← hk]
      exact h
    · rw [set, if_neg hk]
      refine List.nodup_cons.mpr ⟨fun hm => ?_, ih hr⟩
      obtain ⟨p, hp, hpk⟩ := List.mem_map.mp hm
      rcases mem_of_mem_set hp with rfl | hp
      · exact hk hpk.symm
      · exact hq (List.mem_map.mpr ⟨p, hp, hpk⟩)

variable [BEq α] [LawfulBEq α]

omit [DecidableEq α] in
theorem lookup_cons_ne {j k : α} (h : j ≠ k) (v : β) (l : List (α × β)) :
    ((k, v) :: l).lookup j = l.lookup j := by
  rw [List.lookup_cons, beq_false_of_ne h]

theorem lookup_set_self (k : α) (v : β) (l : List (α × β)) : (set k v l).lookup k = some v := by
  induction l with
  | nil => simp [set]
  | cons p r ih =>
    by_cases h : p.1 = k
    · simp [set, h]
    · simp [set, h, lookup_cons_ne (Ne.symm h), ih]

theorem lookup_set_ne {j k : α} (h : j ≠ k) (v : β) (l : List (α × β)) :
    (set k v l).lookup j = l.lookup j := by
  induction l with
  | nil => exact lookup_cons_ne h v []
  | cons p r ih =>
    obtain ⟨a, b⟩ := p
    by_cases ha : a = k
    · subst ha
      simp [set, lookup_cons_ne h]
    · by_cases hj : j = a
      · simp [set, ha, hj]
      · simp [set, ha, lookup_cons_ne hj, ih]

theorem lookup_foldl_set (k : α) (l m : List (α × β)) :
    (l.foldl (fun m p => set p.1 p.2 m) m).lookup k = (l.reverse.lookup k).or (m.lookup k) := by
  induction l generalizing m with
  | nil => simp
  | cons p r ih =>
    obtain ⟨j, v⟩ := p
    rw [List.foldl_cons, ih, List.reverse_cons, List.lookup_append, Option.or_assoc]
    congr 1
    by_cases h : k = j
    · subst h
      simp [lookup_set_self]
    · simp [lookup_set_ne h, lookup_cons_ne h]

theorem lookup_ofList (k : α) (l : List (α × β)) : (ofList l).lookup k = l.reverse.lookup k := by
  rw [ofList, lookup_foldl_set]
  simp

omit [DecidableEq α] in
theorem mem_of_lookup {k : α} {v : β} {l : List (α × β)} (h : l.lookup k = some v) : (k, v) ∈ l := by
  obtain ⟨l₁, l₂, rfl, _⟩ := List.lookup_eq_some_iff.mp h
  simp

theorem lookup_erase (j k : α) (l : List (α × β)) : (erase k l).lookup j = if j = k then none else l.lookup j := by
  induction l with
  | nil => simp [erase]
  | cons p r ih =>
    obtain ⟨a, b⟩ := p
    rw [erase, List.filter_cons]
    by_cases ha : a = k
    · subst ha
      by_cases hj : j = a
      · simpa [hj, erase] using ih
      · simpa [hj, erase, lookup_cons_ne hj] using ih
    · by_cases hj : j = a
      · simp [hj, ha]
      · simpa [ha, erase, lookup_cons_ne hj] using ih

theorem any_eq_isSome_lookup (k : α) (l : List (α × β)) : l.any (·.1 = k) = (l.lookup k).isSome := by
  induction l with
  | nil => rfl
  | cons p r ih =>
    obtain ⟨j, v⟩ := p
    by_cases h : k = j
    · subst h
      simp
    · rw [List.any_cons, ih, lookup_cons_ne h]
      simp [Ne.symm h]

omit [BEq α] [LawfulBEq α] in
theorem any_iff_mem {k : α} {l : List (α × β)} : l.any (·.1 = k) = true ↔ k ∈ l.map Prod.fst := by
  rw [List.any_eq_true, List.mem_map]
  exact exists_congr fun p => and_congr_right fun _ => decide_eq_true_iff

omit [DecidableEq α] in
theorem lookup_map {γ : Type} (f : β → γ) (k : α) (l : List (α × β)) :
    (l.map fun p => (p.1, f p.2)).lookup k = (l.lookup k).map f := by
  induction l with
  | nil => rfl
  | cons p r ih =>
    obtain ⟨j, v⟩ := p
    rw [List.map_cons]
    by_cases h : k = j
    · subst h
      simp
    · rw [lookup_cons_ne h, lookup_cons_ne h, ih]

omit [DecidableEq α] in
theorem lookup_eq_some_iff {k : α} {v : β} {l : List (α × β)} (h : (l.map Prod.fst).Nodup) :
    l.lookup k = some v ↔ (k, v) ∈ l := by
  refine ⟨mem_of_lookup, fun hm => ?_⟩
  induction l with
  | nil => cases hm
  | cons p r ih =>
    obtain ⟨hp, hr⟩ := List.nodup_cons.mp h
    rcases List.mem_cons.mp hm with rfl | hm
    · exact List.lookup_cons_self
    · have hne : k ≠ p.1 := fun he => hp (List.mem_map.mpr ⟨(k, v), hm, he⟩)
      rw [← ih hr hm]
      exact lookup_cons_ne hne p.2 r

omit [DecidableEq α] in
theorem lookup_perm {l l' : List (α × β)} (h : l.Perm l') (hl : (l.map Prod.fst).Nodup) (k : α) :
    l.lookup k = l'.lookup k := by
  have hl' : (l'.map Prod.fst).Nodup := (h.map Prod.fst).nodup_iff.mp hl
  ext v
  rw [lookup_eq_some_iff hl, lookup_eq_some_iff hl', h.mem_iff]

end BearerGate.Assoc
