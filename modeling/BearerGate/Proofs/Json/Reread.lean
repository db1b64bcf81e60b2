import BearerGate.Proofs.Json.Readable

namespace BearerGate.Raw

open Json

section Printed

def printed (j : Json) : Bytes := Utf8.encode j.print

def printedItems (items : List Json) : Bytes := Utf8.encode (Json.printItems items)

def printedMembers (members : List (Text × Json)) : Bytes := Utf8.encode (Json.printMembers members)

def printedMember (k : Text) (v : Json) : Bytes := 34 :: (escaped k ++ 34 :: 58 :: printed v)

variable {k : Text} {v : Json} {items : List Json} {members : List (Text × Json)}

theorem printed_string (t : Text) : printed (.string t) = 34 :: (escaped t ++ [34]) := by
  rw [printed, Json.print, encode_quote]

theorem printed_array_nil : printed (.array []) = [91, 93] := by
  rw [printed, Json.print]
  rfl

theorem printed_array_cons : printed (.array (v :: items)) = 91 :: (printed v ++ printedItems items) := by
  rw [printed, Json.print, List.cons_append, Utf8.encode_cons, Utf8.encode_append]
  rfl

theorem printedItems_nil : printedItems [] = [93] := rfl

theorem printedItems_cons : printedItems (v :: items) = 44 :: (printed v ++ printedItems items) := by
  rw [printedItems, Json.printItems, List.cons_append, Utf8.encode_cons, Utf8.encode_append]
  rfl

theorem printed_object_nil : printed (.object []) = [123, 125] := by
  rw [printed, Json.print]
  rfl

theorem printed_object_cons :
    printed (.object ((k, v) :: members)) = 123 :: (printedMember k v ++ printedMembers members) := by
  rw [printed, Json.print, Utf8.encode_append, List.cons_append, Utf8.encode_cons, encode_quote_append]
  rfl

theorem printedMembers_cons :
    printedMembers ((k, v) :: members) = 44 :: (printedMember k v ++ printedMembers members) := by
  rw [printedMembers, Json.printMembers, Utf8.encode_append, List.cons_append, Utf8.encode_cons, encode_quote_append]
  rfl

end Printed

section Steps

variable {fuel : Nat} {s r : Bytes} {v : Raw}

theorem items?_last (h : value? fuel s = some (v, 93 :: r)) : items? (fuel + 1) s = some ([v], r) := by
  rw [items?, h]
  rfl

theorem items?_more (h : value? fuel s = some (v, 44 :: r)) :
    items? (fuel + 1) s = (items? fuel r).map fun p => (v :: p.1, p.2) := by
  rw [items?, h]
  rfl

theorem value?_items {b : UInt8} (hspace : isSpace b = false) (hclose : b ≠ 93) (s : Bytes) :
    value? (fuel + 1) (91 :: b :: s) = (items? fuel (b :: s)).map fun p => (array p.1, p.2) := by
  rw [value?, skipSpace_cons (by decide)]
  simp only [skipSpace_cons hspace]
  split
  · rename_i he
    exact absurd (List.cons.inj he).1 hclose
  · rfl

theorem after?_cons_ne {a b : UInt8} (h : b ≠ a) (word s : Bytes) : after? (a :: word) (b :: s) = none := by
  have hab : (a == b) = false := beq_eq_false_iff_ne.mpr h.symm
  rw [after?, List.isPrefixOf_cons_cons, hab, Bool.false_and, if_neg Bool.false_ne_true]

def BeginsNumber (b : UInt8) : Prop := isDigit b = true ∨ b = 45

theorem BeginsNumber.ne {a b : UInt8} (hb : BeginsNumber b) (hdigit : isDigit a = false) (hsign : a ≠ 45) :
    b ≠ a := by
  rintro rfl
  rcases hb with hb | rfl
  · rw [hdigit] at hb
    cases hb
  · exact hsign rfl

theorem BeginsNumber.isSpace {b : UInt8} (hb : BeginsNumber b) : isSpace b = false := by
  simp only [Raw.isSpace, Bool.or_eq_false_iff, beq_eq_false_iff_ne]
  exact ⟨⟨⟨hb.ne (by decide) (by decide), hb.ne (by decide) (by decide)⟩, hb.ne (by decide) (by decide)⟩,
    hb.ne (by decide) (by decide)⟩

theorem value?_number {b : UInt8} {spelling : Bytes} (hb : BeginsNumber b)
    (h : number? (b :: s) = some (spelling, r)) : value? (fuel + 1) (b :: s) = some (number spelling, r) := by
  have hnull : Utf8.encode "null" = [110, 117, 108, 108] := rfl
  have htrue : Utf8.encode "true" = [116, 114, 117, 101] := rfl
  have hfalse : Utf8.encode "false" = [102, 97, 108, 115, 101] := rfl
  rw [value?, skipSpace_cons hb.isSpace, hnull, htrue, hfalse]
  split
  · simp_all
  · rename_i he
    exact absurd (List.cons.inj he).1 (hb.ne (by decide) (by decide))
  · rename_i he
    exact absurd (List.cons.inj he).1 (hb.ne (by decide) (by decide))
  · rename_i he
    exact absurd (List.cons.inj he).1 (hb.ne (by decide) (by decide))
  · have hn := after?_cons_ne (hb.ne (a := 110) (by decide) (by decide))
    have ht := after?_cons_ne (hb.ne (a := 116) (by decide) (by decide))
    have hf := after?_cons_ne (hb.ne (a := 102) (by decide) (by decide))
    simp only [hn, ht, hf, h, Option.map_some]

end Steps

/-- A value is read as it is printed, whatever closes it. -/
structure Rereads (j : Json) : Prop where
  begins : ∃ b s, printed j = b :: s ∧ isSpace b = false ∧ b ≠ 93
  reads : ∀ {fuel : Nat} {r : Bytes}, Closes r → 2 * (printed j).length ≤ fuel →
    value? fuel (printed j ++ r) = some (j.raw, r)

theorem Rereads.of_step {j : Json} (hbegins : ∃ b s, printed j = b :: s ∧ isSpace b = false ∧ b ≠ 93)
    (hreads : ∀ {fuel : Nat} {r : Bytes}, Closes r → 2 * (printed j).length ≤ fuel + 1 →
      value? (fuel + 1) (printed j ++ r) = some (j.raw, r)) : Rereads j where
  begins := hbegins
  reads := by
    intro fuel r hr hf
    cases fuel with
    | zero =>
        obtain ⟨b, s, hb, -⟩ := hbegins
        rw [hb, List.length_cons] at hf
        omega
    | succ fuel => exact hreads hr hf

section Containers

variable {v : Json} {items : List Json} {members : List (Text × Json)} {fuel : Nat}

/-- The fuel covers an item and the list behind it. -/
theorem items?_printed (hv : Rereads v) (hitems : ∀ w ∈ items, Rereads w)
    (hf : 2 * (printed v ++ printedItems items).length ≤ fuel) (r : Bytes) :
    items? fuel (printed v ++ (printedItems items ++ r)) = some (raw v :: rawItems items, r) := by
  induction items generalizing v fuel with
  | nil =>
      rw [printedItems_nil, List.length_append, List.length_singleton] at hf
      obtain ⟨fuel, rfl⟩ : ∃ f, fuel = f + 1 := ⟨fuel - 1, by omega⟩
      exact items?_last (hv.reads (Closes.cons (by decide) r) (by omega))
  | cons w items ih =>
      rw [List.forall_mem_cons] at hitems
      rw [printedItems_cons, List.length_append, List.length_cons] at hf
      obtain ⟨fuel, rfl⟩ : ∃ f, fuel = f + 1 := ⟨fuel - 1, by omega⟩
      rw [printedItems_cons, List.cons_append, List.append_assoc,
        items?_more (hv.reads (Closes.cons (by decide) _) (by omega)), ih hitems.1 hitems.2 (by omega)]
      rfl

theorem members?_printed {k : Text} (hv : Rereads v) (hmembers : ∀ m ∈ members, Rereads m.2)
    (hf : 2 * (printedMember k v ++ printedMembers members).length ≤ fuel) (r : Bytes) :
    members? fuel (printedMember k v ++ (printedMembers members ++ r)) =
      some ((escaped k, raw v) :: rawMembers members, r) := by
  have hnamed (k v) (s : Bytes) : printedMember k v ++ s = 34 :: (escaped k ++ 34 :: 58 :: (printed v ++ s)) := by
    rw [printedMember, List.cons_append, List.append_assoc, List.cons_append, List.cons_append]
  have hlength (k v) : (printed v).length + 3 ≤ (printedMember k v).length := by
    simp only [printedMember, List.length_cons, List.length_append]
    omega
  induction members generalizing k v fuel with
  | nil =>
      have hv' := hlength k v
      rw [List.length_append] at hf
      obtain ⟨fuel, rfl⟩ : ∃ f, fuel = f + 1 := ⟨fuel - 1, by omega⟩
      rw [hnamed]
      exact members?_last k (hv.reads (Closes.cons (by decide) r) (by omega))
  | cons m members ih =>
      obtain ⟨l, w⟩ := m
      have hv' := hlength k v
      obtain ⟨hw, hmembers⟩ : Rereads w ∧ ∀ m ∈ members, Rereads m.2 := List.forall_mem_cons.mp hmembers
      rw [printedMembers_cons, List.length_append, List.length_cons] at hf
      obtain ⟨fuel, rfl⟩ : ∃ f, fuel = f + 1 := ⟨fuel - 1, by omega⟩
      rw [hnamed, printedMembers_cons, List.cons_append, List.append_assoc,
        members?_more k (hv.reads (Closes.cons (by decide) _) (by omega)), ih hw hmembers (by omega)]
      rfl

end Containers

theorem Rereads.string (t : Text) : Rereads (.string t) := by
  refine .of_step ⟨34, _, printed_string t, by decide, by decide⟩ fun hr _ => ?_
  rw [printed_string, List.cons_append, List.append_assoc, List.cons_append, List.nil_append, value?_string, Json.raw]

theorem Rereads.array {items : List Json} (h : ∀ v ∈ items, Rereads v) : Rereads (.array items) := by
  cases items with
  | nil =>
      refine .of_step ⟨91, _, printed_array_nil, by decide, by decide⟩ fun hr _ => ?_
      rw [printed_array_nil, Json.raw]
      rfl
  | cons v items =>
      rw [List.forall_mem_cons] at h
      refine .of_step ⟨91, _, printed_array_cons, by decide, by decide⟩ fun hr hf => ?_
      obtain ⟨b, s, hb, hspace, hclose⟩ := h.1.begins
      rw [printed_array_cons, List.length_cons] at hf
      rw [printed_array_cons, List.cons_append, List.append_assoc, hb, List.cons_append, value?_items hspace hclose,
        ← List.cons_append, ← hb, items?_printed h.1 h.2 (by omega), Json.raw, rawItems]
      rfl

theorem Rereads.object {members : List (Text × Json)} (h : ∀ m ∈ members, Rereads m.2) :
    Rereads (.object members) := by
  cases members with
  | nil =>
      refine .of_step ⟨123, _, printed_object_nil, by decide, by decide⟩ fun hr _ => ?_
      rw [printed_object_nil, Json.raw]
      rfl
  | cons m members =>
      obtain ⟨k, v⟩ := m
      obtain ⟨hv, hmembers⟩ : Rereads v ∧ ∀ m ∈ members, Rereads m.2 := List.forall_mem_cons.mp h
      refine .of_step ⟨123, _, printed_object_cons, by decide, by decide⟩ fun {fuel r} hr hf => ?_
      rw [printed_object_cons, List.length_cons] at hf
      have hread : members? fuel (printedMember k v ++ (printedMembers members ++ r)) = _ :=
        members?_printed hv hmembers (by omega) r
      rw [printedMember, List.cons_append] at hread
      rw [printed_object_cons, List.cons_append, List.append_assoc, printedMember, List.cons_append, value?_members,
        hread, Json.raw, rawMembers]
      rfl

theorem beginsNumber_printed (n : Int) : ∃ b s, printed (.int n) = b :: s ∧ BeginsNumber b := by
  rw [printed, Json.print, Text.ofInt]
  split
  · exact ⟨45, _, rfl, .inr rfl⟩
  · obtain ⟨b, s, hb, hdigit⟩ := encode_ofNat_eq_cons n.natAbs
    exact ⟨b, s, hb, .inl hdigit⟩

theorem Rereads.of_number {j : Json} {spelling : Bytes} (hraw : j.raw = .number spelling)
    (hbegins : ∃ b s, printed j = b :: s ∧ BeginsNumber b)
    (h : ∀ {r}, Closes r → number? (printed j ++ r) = some (spelling, r)) : Rereads j := by
  obtain ⟨b, s, hb, hnumber⟩ := hbegins
  refine .of_step ⟨b, s, hb, hnumber.isSpace, hnumber.ne (by decide) (by decide)⟩ fun hr _ => ?_
  have hread := h hr
  rw [hb, List.cons_append] at hread ⊢
  rw [hraw]
  exact value?_number hnumber hread

theorem rereads_of_readable {depth : Nat} {j : Json} (h : Readable depth j) : Rereads j := by
  induction h with
  | null => exact .of_step ⟨110, _, rfl, by decide, by decide⟩ fun _ _ => rfl
  | @bool _ b =>
      cases b with
      | true => exact .of_step ⟨116, _, rfl, by decide, by decide⟩ fun _ _ => rfl
      | false => exact .of_step ⟨102, _, rfl, by decide, by decide⟩ fun _ _ => rfl
  | @int _ n _ => exact .of_number (by rw [Json.raw]) (beginsNumber_printed n) fun hr => number?_ofInt n hr
  | zero => exact .of_number (by rw [Json.raw]) ⟨45, _, rfl, .inr rfl⟩ fun hr => number?_zero hr
  | string => exact .string _
  | array _ ih => exact .array ih
  | object _ _ ih => exact .object ih

theorem parse?_printed {depth : Nat} {j : Json} (h : Readable depth j) : parse? (printed j) = some j.raw := by
  have hfuel : 2 * (printed j).length ≤ 2 * (printed j).length + 2 := Nat.le_add_right _ 2
  have hread := (rereads_of_readable h).reads Closes.nil hfuel
  rw [List.append_nil] at hread
  rw [parse?, hread]
  rfl

end BearerGate.Raw
