import BearerGate.Proofs.Cache.Change
import BearerGate.Gate.Call
import Mathlib.Data.List.Perm.Basic
import Mathlib.Data.List.Nodup
import Mathlib.Data.List.Forall2

namespace BearerGate

namespace Cache

variable {p : CachePolicy} {rules : CacheRules} {now deadline : Millis} {c : Cache} {d : Due}

theorem slot?_of_mem (h : (c.slots.map Prod.fst).Nodup) {i : Text} {s : Slot} (hm : (i, s) ∈ c.slots) :
    c.slot? i = some s := by
  obtain ⟨l₁, l₂, hl⟩ := List.append_of_mem hm
  rw [hl, List.map_append, List.map_cons] at h
  rw [slot?, List.lookup_eq_some_iff]
  refine ⟨l₁, l₂, hl, fun x hx => ?_⟩
  rw [bne_iff_ne]
  rintro rfl
  exact (List.nodup_append.mp h).2.2 _ (List.mem_map_of_mem hx) _ List.mem_cons_self rfl

theorem mem_due (h : (c.slots.map Prod.fst).Nodup) :
    d ∈ c.due deadline ↔
      ∃ r, c.record? d.issuer = some r ∧ r.generation = d.generation ∧ r.isFresh deadline = false := by
  rw [due, List.mem_filterMap]
  constructor
  · rintro ⟨⟨i, s⟩, hm, hd⟩
    dsimp only at hd
    split at hd
    · rename_i r hr
      split at hd
      · rename_i hle
        obtain rfl := Option.some.inj hd
        refine ⟨r, ?_, rfl, ?_⟩
        · rw [record?, slot, slot?_of_mem h hm, Option.getD_some, hr]
        · rw [Record.isFresh, decide_eq_false_iff_not]
          exact Nat.not_lt_of_le hle
      · cases hd
    · cases hd
  · rintro ⟨r, hr, hg, hstale⟩
    rw [Record.isFresh, decide_eq_false_iff_not, Nat.not_lt] at hstale
    cases hs : c.slot? d.issuer with
    | none =>
        rw [record?, slot, hs] at hr
        cases hr
    | some s =>
        rw [record?, slot, hs, Option.getD_some] at hr
        refine ⟨(d.issuer, s), Assoc.mem_of_lookup hs, ?_⟩
        simp only [hr, if_pos hstale, hg]

theorem sublist_due (deadline : Millis) (c : Cache) :
    ((c.due deadline).map Due.issuer).Sublist (c.slots.map Prod.fst) := by
  rw [due]
  induction c.slots with
  | nil => exact .slnil
  | cons x l ih =>
      obtain ⟨i, s⟩ := x
      rw [List.filterMap_cons]
      split
      · exact ih.cons i
      · rename_i d hd
        have hi : d.issuer = i := by
          dsimp only at hd
          split at hd
          · split at hd
            · exact (congrArg Due.issuer (Option.some.inj hd)).symm
            · cases hd
          · cases hd
        rw [List.map_cons, hi]
        exact ih.cons_cons i

theorem arrange_perm (order : List Text) (l : List Due) : (arrange order l).Perm l := by
  induction order generalizing l with
  | nil => exact .refl l
  | cons i order ih =>
      rw [arrange]
      refine ((ih _).append_left _).trans ?_
      simpa using List.filter_append_perm (fun d : Due => d.issuer = i) l

theorem arrange_of_perm {l l' : List Due} (h : l'.Perm l) (hl : (l.map Due.issuer).Nodup) :
    arrange (l'.map Due.issuer) l = l' := by
  induction l' generalizing l with
  | nil =>
      obtain rfl := List.nil_perm.mp h
      rfl
  | cons d rest ih =>
      have hnodup := (h.map Due.issuer).nodup_iff.mpr hl
      rw [List.map_cons, List.nodup_cons] at hnodup
      have hne : ∀ e ∈ rest, e.issuer ≠ d.issuer := fun e he hi => hnodup.1 (hi ▸ List.mem_map_of_mem he)
      have hfirst : l.filter (·.issuer = d.issuer) = [d] := by
        have hnone : rest.filter (·.issuer = d.issuer) = [] := by
          rw [List.filter_eq_nil_iff]
          exact fun e he => by simpa using hne e he
        have hperm := h.filter (·.issuer = d.issuer)
        rw [List.filter_cons_of_pos (by simp), hnone] at hperm
        exact List.singleton_perm.mp hperm |>.symm
      have hrest : rest.Perm (l.filter (·.issuer ≠ d.issuer)) := by
        have hall : rest.filter (·.issuer ≠ d.issuer) = rest := by
          rw [List.filter_eq_self]
          exact fun e he => by simpa using hne e he
        have hperm := h.filter (·.issuer ≠ d.issuer)
        rwa [List.filter_cons_of_neg (by simp), hall] at hperm
      have hlater := ih hrest (hl.sublist (List.filter_sublist.map _))
      rw [List.map_cons, arrange, hfirst, hlater, List.singleton_append]

/-- The issuers that a sweep passes by without a wait, and what it is told of each of them. -/
def told (p : CachePolicy) (now : Millis) (c : Cache) : List Due → List (Text × Outcome)
  | [] => []
  | d :: rest =>
    match (c.request p now d.issuer (.newer d.generation)).2 with
    | .wait _ => []
    | .done o => (d.issuer, o) :: told p now c rest

/-- A sweep has tried to refresh the issuer, and if it has succeeded, the record is newer than the one that it
saw. -/
structure Tried (d : Due) (x : Text × Outcome) : Prop where
  issuer : x.1 = d.issuer
  newer : ∀ r, x.2 = .ok r → d.generation < r.generation

def wins (l : List (Text × Outcome)) : Nat := l.countP (·.2.isOk)

theorem wins_cons_ok (i : Text) (r : Record) (l : List (Text × Outcome)) : wins ((i, .ok r) :: l) = wins l + 1 :=
  List.countP_cons_of_pos rfl

theorem wins_cons_error (i : Text) (f : FetchFault) (l : List (Text × Outcome)) :
    wins ((i, .error f) :: l) = wins l :=
  List.countP_cons_of_neg Bool.false_ne_true

theorem Tried.of_settled {o : Outcome} (h : (c.slot d.issuer).settled? p now (.newer d.generation) = some o) :
    Tried d (d.issuer, o) := by
  refine ⟨rfl, ?_⟩
  rintro r rfl
  rw [Slot.settled?] at h
  split at h
  · split at h
    · rename_i hmet
      obtain rfl := Except.ok.inj (Option.some.inj h)
      simpa [Wanted.isMetBy, Wanted.isKeyMiss] using hmet
    · simp at h
  · simp at h

/-- Where a sweep is that has these issuers left to do and has refreshed so many: it is over, or it waits for a
fetch of the first of them. -/
inductive Stands (n : Nat) : List Due → Sweep → Prop
  | isOver : Stands n [] (.done n)
  | waits (d : Due) (rest : List Due) (t : Ticket) (h : t.issuer = d.issuer) : Stands n (d :: rest) (.wait t rest n)

theorem sweep_stands (rules : CacheRules) (now : Millis) (due : List Due) (n : Nat) (c : Cache) :
    ∃ visited rest, due = visited ++ rest ∧ List.Forall₂ Tried visited (c.told rules.policy now due) ∧
      Stands (n + wins (c.told rules.policy now due)) rest (c.sweep rules now due n).2 := by
  induction due generalizing n with
  | nil => exact ⟨[], [], rfl, .nil, .isOver⟩
  | cons d due ih =>
      rcases request_cases rules.policy now d.issuer (.newer d.generation) c with
        ⟨m, -, hr⟩ | ⟨-, ⟨o, ho, hr⟩ | ⟨-, hr⟩⟩
      · simp only [told, sweep, hr]
        exact ⟨[], d :: due, rfl, .nil, .waits d due _ rfl⟩
      · cases o with
        | ok r =>
            obtain ⟨visited, rest, rfl, htried, hstands⟩ := ih (n + 1)
            simp only [told, sweep, hr, wins_cons_ok]
            refine ⟨d :: visited, rest, rfl, .cons (.of_settled ho) htried, ?_⟩
            rwa [Nat.add_comm _ 1, ← Nat.add_assoc]
        | error f =>
            obtain ⟨visited, rest, rfl, htried, hstands⟩ := ih n
            simp only [told, sweep, hr, wins_cons_error]
            exact ⟨d :: visited, rest, rfl, .cons (.of_settled ho) htried, hstands⟩
      · simp only [told, sweep, hr]
        exact ⟨[], d :: due, rfl, .nil, .waits d due _ rfl⟩

end Cache

end BearerGate
