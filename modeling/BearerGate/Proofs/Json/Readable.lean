import BearerGate.Assoc
import BearerGate.Proofs.Json.Number
import BearerGate.Proofs.Json.Quoted

namespace BearerGate

namespace Json

mutual

/-- What a value is read as once it is printed. -/
def raw : Json → Raw
  | null => .null
  | bool b => .bool b
  | int n => .number (Utf8.encode (Text.ofInt n))
  | real x => .number (Utf8.encode x.print)
  | string t => .string (Raw.escaped t)
  | array items => .array (rawItems items)
  | object members => .object (rawMembers members)

def rawItems : List Json → List Raw
  | [] => []
  | v :: r => raw v :: rawItems r

def rawMembers : List (Text × Json) → List (Bytes × Raw)
  | [] => []
  | (k, v) :: r => (Raw.escaped k, raw v) :: rawMembers r

end

/-- Values that a text stands for, with at most `depth` containers inside one another. Of all numbers with a
fraction or an exponent there is only the negative zero, which `-0` stands for. -/
inductive Readable : Nat → Json → Prop
  | null {depth : Nat} : Readable depth .null
  | bool {depth : Nat} {b : Bool} : Readable depth (.bool b)
  | int {depth : Nat} {n : Int} (h : Word.IsInteger n) : Readable depth (.int n)
  | zero {depth : Nat} : Readable depth (.real (Binary64.zero true))
  | string {depth : Nat} {t : Text} : Readable depth (.string t)
  | array {depth : Nat} {items : List Json} (h : ∀ v ∈ items, Readable depth v) :
      Readable (depth + 1) (.array items)
  | object {depth : Nat} {members : List (Text × Json)} (hnames : (members.map Prod.fst).Nodup)
      (h : ∀ m ∈ members, Readable depth m.2) : Readable (depth + 1) (.object members)

end Json

namespace Raw

open Json

theorem buildItems?_rawItems {depth : Nat} {items : List Json} (h : ∀ v ∈ items, build? depth v.raw = some v) :
    buildItems? depth (rawItems items) = some items := by
  induction items with
  | nil => rfl
  | cons v r ih =>
      rw [List.forall_mem_cons] at h
      rw [rawItems, buildItems?, h.1, ih h.2]

theorem buildMembers?_rawMembers {depth : Nat} {members : List (Text × Json)} (hnames : (members.map Prod.fst).Nodup)
    (h : ∀ m ∈ members, build? depth m.2.raw = some m.2) :
    buildMembers? depth (rawMembers members) = some members := by
  induction members with
  | nil => rfl
  | cons m r ih =>
      obtain ⟨k, v⟩ := m
      obtain ⟨hk, hr⟩ := List.nodup_cons.mp hnames
      rw [List.forall_mem_cons] at h
      rw [rawMembers, buildMembers?, unquote?_escaped, h.1, ih hr h.2]
      simp only [if_neg (mt Assoc.any_iff_mem.mp hk)]

theorem build?_raw {depth : Nat} {j : Json} (h : Readable depth j) : build? depth j.raw = some j := by
  induction h with
  | null => rw [raw, build?]
  | bool => rw [raw, build?]
  | int h => rw [raw, build?, numberValue?_ofInt h]
  | zero => rw [raw, build?, numberValue?_zero]
  | string => rw [raw, build?, unquote?_escaped]; rfl
  | array _ ih => rw [raw, build?, buildItems?_rawItems ih]; rfl
  | object hnames _ ih => rw [raw, build?, buildMembers?_rawMembers hnames ih]; rfl

section Build

variable {depth : Nat}

theorem exists_of_buildItems? {raws : List Raw} {items : List Json} (h : buildItems? depth raws = some items) :
    ∀ v ∈ items, ∃ r ∈ raws, build? depth r = some v := by
  induction raws generalizing items with
  | nil =>
      obtain rfl := Option.some.inj h
      exact fun _ h => absurd h List.not_mem_nil
  | cons r raws ih =>
      rw [buildItems?] at h
      split at h
      · rename_i v l hv hl
        obtain rfl := Option.some.inj h
        rw [List.forall_mem_cons]
        refine ⟨⟨r, List.mem_cons_self, hv⟩, fun w hw => ?_⟩
        obtain ⟨s, hs, hw⟩ := ih hl w hw
        exact ⟨s, List.mem_cons_of_mem r hs, hw⟩
      · cases h

theorem nodup_enter {k : Text} {v : Json} {r : List (Text × Json)} (h : (r.map Prod.fst).Nodup) :
    ((if r.any (·.1 = k) then r else (k, v) :: r).map Prod.fst).Nodup := by
  split
  · exact h
  · rename_i hany
    exact List.nodup_cons.mpr ⟨mt Assoc.any_iff_mem.mpr hany, h⟩

theorem mem_enter {k : Text} {v : Json} {r : List (Text × Json)} {m : Text × Json}
    (h : m ∈ if r.any (·.1 = k) then r else (k, v) :: r) : m = (k, v) ∨ m ∈ r := by
  split at h
  · exact .inr h
  · exact List.mem_cons.mp h

theorem exists_of_buildMembers? {raws : List (Bytes × Raw)} {members : List (Text × Json)}
    (h : buildMembers? depth raws = some members) :
    (members.map Prod.fst).Nodup ∧ ∀ m ∈ members, ∃ r, build? depth r = some m.2 := by
  induction raws generalizing members with
  | nil =>
      obtain rfl := Option.some.inj h
      exact ⟨List.nodup_nil, fun _ h => absurd h List.not_mem_nil⟩
  | cons p raws ih =>
      obtain ⟨k, r⟩ := p
      rw [buildMembers?] at h
      split at h
      · rename_i k v l _ hv hl
        obtain rfl := Option.some.inj h
        obtain ⟨hnames, hvalues⟩ := ih hl
        refine ⟨nodup_enter hnames, fun m hm => ?_⟩
        rcases mem_enter hm with rfl | hm
        · exact ⟨r, hv⟩
        · exact hvalues m hm
      · cases h

end Build

end Raw

/-- A value without fractions and exponents. `-0` is no integer, but counts as one here. -/
inductive Json.IsWhole : Json → Prop
  | null : IsWhole .null
  | bool {b : Bool} : IsWhole (.bool b)
  | int {n : Int} : IsWhole (.int n)
  | zero : IsWhole (.real (Binary64.zero true))
  | string {t : Text} : IsWhole (.string t)
  | array {items : List Json} (h : ∀ v ∈ items, IsWhole v) : IsWhole (.array items)
  | object {members : List (Text × Json)} (h : ∀ m ∈ members, IsWhole m.2) : IsWhole (.object members)

namespace Raw

open Json

theorem readable_of_numberValue? {depth : Nat} {spelling : Bytes} {j : Json} (h : numberValue? spelling = some j)
    (hj : j.IsWhole) : Readable depth j := by
  rcases numberValue?_cases h with ⟨n, rfl, hn⟩ | ⟨x, rfl⟩
  · exact .int hn
  · cases hj
    exact .zero

/-- What is built of a text is readable again. -/
theorem readable_of_build? {depth : Nat} {r : Raw} {j : Json} (h : build? depth r = some j) (hj : j.IsWhole) :
    Readable depth j := by
  match depth, r with
  | _, .null =>
      rw [build?] at h
      obtain rfl := Option.some.inj h
      exact .null
  | _, .bool _ =>
      rw [build?] at h
      obtain rfl := Option.some.inj h
      exact .bool
  | _, .number _ =>
      rw [build?] at h
      exact readable_of_numberValue? h hj
  | _, .string _ =>
      rw [build?] at h
      obtain ⟨t, -, rfl⟩ := Option.map_eq_some_iff.mp h
      exact .string
  | 0, .array _ =>
      rw [build?] at h
      cases h
  | 0, .object _ =>
      rw [build?] at h
      cases h
  | depth + 1, .array _ =>
      rw [build?] at h
      obtain ⟨items, hitems, rfl⟩ := Option.map_eq_some_iff.mp h
      cases hj with
      | array hj =>
          refine .array fun v hv => ?_
          obtain ⟨r, -, hr⟩ := exists_of_buildItems? hitems v hv
          exact readable_of_build? hr (hj v hv)
  | depth + 1, .object _ =>
      rw [build?] at h
      obtain ⟨members, hmembers, rfl⟩ := Option.map_eq_some_iff.mp h
      obtain ⟨hnames, hvalues⟩ := exists_of_buildMembers? hmembers
      cases hj with
      | object hj =>
          refine .object hnames fun m hm => ?_
          obtain ⟨r, hr⟩ := hvalues m hm
          exact readable_of_build? hr (hj m hm)

end Raw

end BearerGate
