import BearerGate.Json.Value
import BearerGate.Proofs.Json.Readable

namespace BearerGate

namespace Text

theorem precedes_total (s t : Text) : (s.precedes t || t.precedes s) = true := by
  induction s generalizing t with
  | nil => rfl
  | cons a s ih =>
      cases t with
      | nil => rfl
      | cons b t =>
          have ih := ih t
          simp only [precedes, Bool.or_eq_true, Bool.and_eq_true, decide_eq_true_eq] at ih ⊢
          rcases Nat.lt_trichotomy a.toNat b.toNat with h | h | h
          · exact .inl (.inl h)
          · have hab : a = b := Char.ext (UInt32.toNat_inj.mp h)
            exact ih.imp (fun h => .inr ⟨hab, h⟩) fun h => .inr ⟨hab.symm, h⟩
          · exact .inr (.inl h)

theorem precedes_trans (r s t : Text) (hrs : r.precedes s = true) (hst : s.precedes t = true) :
    r.precedes t = true := by
  induction r generalizing s t with
  | nil => rfl
  | cons a r ih =>
      match s, t with
      | [], _ => cases hrs
      | _ :: _, [] => cases hst
      | b :: s, c :: t =>
          simp only [precedes, Bool.or_eq_true, Bool.and_eq_true, decide_eq_true_eq] at hrs hst ⊢
          rcases hrs with hab | ⟨rfl, hrs⟩
          · rcases hst with hbc | ⟨rfl, -⟩
            · exact .inl (Nat.lt_trans hab hbc)
            · exact .inl hab
          · exact hst.imp_right fun ⟨hbc, hst⟩ => ⟨hbc, ih s t hrs hst⟩

end Text

namespace Json

theorem sortedItems_eq (items : List Json) : sortedItems items = items.map sorted := by
  induction items with
  | nil => rfl
  | cons v r ih => rw [sortedItems, ih, List.map_cons]

theorem sortedMembers_eq (members : List (Text × Json)) :
    sortedMembers members = members.map fun m => (m.1, m.2.sorted) := by
  induction members with
  | nil => rfl
  | cons m r ih => rw [sortedMembers, ih, List.map_cons]

variable {members : List (Text × Json)}

theorem byName_perm (members : List (Text × Json)) : (byName members).Perm members := List.mergeSort_perm _ _

theorem byName_byName (members : List (Text × Json)) : byName (byName members) = byName members :=
  List.mergeSort_of_pairwise (List.pairwise_mergeSort (fun a b c => Text.precedes_trans a.1 b.1 c.1)
    (fun a b => Text.precedes_total a.1 b.1) members)

theorem sortedMembers_byName (members : List (Text × Json)) :
    sortedMembers (byName members) = byName (sortedMembers members) := by
  rw [sortedMembers_eq, sortedMembers_eq]
  exact List.map_mergeSort fun _ _ _ _ => rfl

mutual

theorem sorted_sorted (j : Json) : j.sorted.sorted = j.sorted := by
  match j with
  | null | bool _ | int _ | real _ | string _ => simp only [sorted]
  | array items => simp only [sorted, sortedItems_sortedItems items]
  | object members =>
      simp only [sorted, sortedMembers_byName, sortedMembers_sortedMembers members, byName_byName]

theorem sortedItems_sortedItems (items : List Json) : sortedItems (sortedItems items) = sortedItems items := by
  match items with
  | [] => rfl
  | v :: r => rw [sortedItems, sortedItems, sorted_sorted v, sortedItems_sortedItems r]

theorem sortedMembers_sortedMembers (members : List (Text × Json)) :
    sortedMembers (sortedMembers members) = sortedMembers members := by
  match members with
  | [] => rfl
  | (_, v) :: r => rw [sortedMembers, sortedMembers, sorted_sorted v, sortedMembers_sortedMembers r]

end

theorem sorted_perm (members : List (Text × Json)) :
    (byName (sortedMembers members)).Perm (members.map fun m => (m.1, m.2.sorted)) :=
  sortedMembers_eq members ▸ byName_perm _

theorem names_sorted_perm (members : List (Text × Json)) :
    ((byName (sortedMembers members)).map Prod.fst).Perm (members.map Prod.fst) := by
  have h := (sorted_perm members).map Prod.fst
  rw [List.map_map] at h
  exact h

theorem forall_mem_sorted {p : Text × Json → Prop} :
    (∀ m ∈ byName (sortedMembers members), p m) ↔ ∀ m ∈ members, p (m.1, m.2.sorted) := by
  rw [← List.forall_mem_map (f := fun m : Text × Json => (m.1, m.2.sorted))]
  exact forall_congr' fun m => by rw [(sorted_perm members).mem_iff]

theorem lookup_sorted (h : (members.map Prod.fst).Nodup) (name : Text) :
    (byName (sortedMembers members)).lookup name = (members.lookup name).map sorted := by
  rw [Assoc.lookup_perm (sorted_perm members) ((names_sorted_perm members).nodup_iff.mpr h), Assoc.lookup_map]

theorem readable_array_iff {depth : Nat} {items : List Json} :
    Readable (depth + 1) (.array items) ↔ ∀ v ∈ items, Readable depth v :=
  ⟨fun h => by cases h; assumption, .array⟩

theorem readable_object_iff {depth : Nat} :
    Readable (depth + 1) (.object members) ↔ (members.map Prod.fst).Nodup ∧ ∀ m ∈ members, Readable depth m.2 :=
  ⟨fun h => by cases h; exact ⟨‹_›, ‹_›⟩, fun h => .object h.1 h.2⟩

theorem readable_sorted_iff (depth : Nat) (j : Json) : Readable depth j.sorted ↔ Readable depth j := by
  match depth, j with
  | _, null | _, bool _ | _, int _ | _, real _ | _, string _ => simp only [sorted]
  | 0, array _ | 0, object _ =>
      rw [sorted]
      exact iff_of_false nofun nofun
  | depth + 1, array items =>
      rw [sorted, readable_array_iff, readable_array_iff, sortedItems_eq, List.forall_mem_map]
      exact forall₂_congr fun v _ => readable_sorted_iff depth v
  | depth + 1, object members =>
      rw [sorted, readable_object_iff, readable_object_iff, (names_sorted_perm members).nodup_iff, forall_mem_sorted]
      exact and_congr_right fun _ => forall₂_congr fun m _ => readable_sorted_iff depth m.2

end Json

end BearerGate
