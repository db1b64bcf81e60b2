import BearerGate.Proofs.Json.Reread
import BearerGate.Proofs.Json.Sorted
import BearerGate.Proofs.Token.Validated

namespace BearerGate

theorem Word.IsSigned.isInteger {n : Int} (h : IsSigned n) : IsInteger n := by
  have hhalf : half < size := by decide
  obtain ⟨hlow, hhigh⟩ := h
  exact ⟨hlow, by omega⟩

namespace Raw

open Json

section Members

variable {members : List (Text × Json)}

def named (members : List (Text × Json)) : List (Text × Raw) := members.map fun m => (m.1, m.2.raw)

theorem names?_rawMembers (members : List (Text × Json)) : names? (rawMembers members) = some (named members) := by
  induction members with
  | nil => rfl
  | cons m r ih => rw [rawMembers, names?, unquote?_escaped, ih]; rfl

theorem only?_of_nodup {members : List (Text × Raw)} (h : (members.map Prod.fst).Nodup) (name : Text) :
    only? name members = some (members.lookup name) := by
  induction members with
  | nil => rfl
  | cons m r ih =>
      obtain ⟨k, v⟩ := m
      obtain ⟨hk, hr⟩ := List.nodup_cons.mp h
      rw [only?]
      split
      · rename_i he
        subst he
        rw [if_neg (mt Assoc.any_iff_mem.mp hk), List.lookup_cons_self]
      · rename_i hne
        rw [ih hr, Assoc.lookup_cons_ne (Ne.symm hne)]

theorem mapM_only? (h : (members.map Prod.fst).Nodup) (names : List Text) :
    (names.mapM fun n => only? n (named members)) = some (names.map fun n => (members.lookup n).map raw) := by
  have hnames : ((named members).map Prod.fst).Nodup := by
    rw [named, List.map_map]
    exact h
  induction names with
  | nil => rfl
  | cons n names ih =>
      rw [List.mapM_cons, ih, only?_of_nodup hnames, named, Assoc.lookup_map]
      rfl

end Members

section Fields

variable {f : Fields} {i : Nat}

theorem optional?_string {o : Option Text} (h : f.raw? i = (o.map Json.string).map raw) :
    f.optional? i text? = some o := by
  cases o with
  | none => simp only [Fields.optional?, Fields.withDefault?, h, Option.map_none]
  | some t =>
      simp only [Fields.optional?, Fields.withDefault?, h, Option.map_some, raw, nullable?, text?, unquote?_escaped]

theorem optional?_int {o : Option Int} (ho : ∀ n, o = some n → Word.IsSigned n)
    (h : f.raw? i = (o.map Json.int).map raw) : f.optional? i int64? = some o := by
  cases o with
  | none => simp only [Fields.optional?, Fields.withDefault?, h, Option.map_none]
  | some n =>
      have hn := ho n rfl
      simp only [Fields.optional?, Fields.withDefault?, h, Option.map_some, raw, nullable?, int64?, integer?,
        numberValue?_ofInt hn.isInteger, Option.bind_eq_bind, Option.bind_some]
      exact congrArg _ (if_pos hn)

end Fields

end Raw

namespace Claims

open Raw Json

def audience (c : Claims) : Option (List Text) := if c.aud = [] then none else some c.aud

def strings (l : List Text) : Json := .array (l.map .string)

def fields (c : Claims) : List (Text × Json) :=
  member "iss" .string c.iss ++ member "sub" .string c.sub ++ member "aud" strings c.audience ++
    member "exp" .int c.exp ++ member "nbf" .int c.nbf ++ member "iat" .int c.iat ++ member "scope" .string c.scope

def values (c : Claims) : List (Option Json) :=
  [c.iss.map .string, c.sub.map .string, c.audience.map strings, c.exp.map .int, c.nbf.map .int, c.iat.map .int,
    c.scope.map .string]

theorem toJson_eq (c : Claims) : c.toJson = .object (c.fields ++ c.extra) := by
  have haud : member "aud" strings c.audience =
      if c.aud = [] then [] else [("aud".toList, .array (c.aud.map .string))] := by
    rw [audience]
    split <;> rfl
  rw [toJson, fields, haud]

theorem names_member {α : Type} (name : Text) (value : α → Json) (v : Option α) :
    ((member name value v).map Prod.fst).Sublist [name] := by
  cases v with
  | none => exact List.nil_sublist _
  | some a => exact List.Sublist.refl _

theorem names_fields (c : Claims) : (c.fields.map Prod.fst).Sublist fieldNames := by
  simp only [fields, List.map_append]
  exact ((((((names_member _ _ _).append (names_member _ _ _)).append (names_member _ _ _)).append
    (names_member _ _ _)).append (names_member _ _ _)).append (names_member _ _ _)).append (names_member _ _ _)

theorem lookup_member {α : Type} (name n : Text) (value : α → Json) (v : Option α) :
    (member name value v).lookup n = if n = name then v.map value else none := by
  cases v with
  | none => simp [member]
  | some a =>
      by_cases h : n = name
      · subst h
        simp [member]
      · simp [member, Assoc.lookup_cons_ne h, h]

theorem lookup_fields (c : Claims) : (fieldNames.map fun n => c.fields.lookup n) = c.values := by
  simp [fieldNames, fields, values, List.lookup_append, lookup_member]

theorem withDefault?_audience {f : Raw.Fields} {i : Nat} {c : Claims}
    (h : f.raw? i = (c.audience.map strings).map raw) : f.withDefault? i [] audience? = some c.aud := by
  have hitems (l : List Text) : (rawItems (l.map .string)).mapM text? = some l := by
    induction l with
    | nil => rfl
    | cons t l ih =>
        rw [List.map_cons, rawItems, List.mapM_cons, ih, raw, text?, unquote?_escaped]
        rfl
  rw [audience] at h
  split at h
  · rename_i hnil
    simp only [Raw.Fields.withDefault?, h, Option.map_none, hnil]
  · simp only [Raw.Fields.withDefault?, h, Option.map_some, strings, raw, audience?, hitems]

theorem buildExtra?_fields {l r : List (Text × Raw)} (h : ∀ m ∈ l, m.1 ∈ fieldNames) :
    buildExtra? (l ++ r) = buildExtra? r := by
  induction l with
  | nil => rfl
  | cons m l ih =>
      rw [List.forall_mem_cons] at h
      rw [List.cons_append, buildExtra?, if_pos h.1, ih h.2]

theorem buildExtra?_named {extra : List (Text × Json)} (hnames : (extra.map Prod.fst).Nodup)
    (hothers : ∀ m ∈ extra, m.1 ∉ fieldNames) (hvalues : ∀ m ∈ extra, Readable (maxDepth - 1) m.2) :
    buildExtra? (named extra) = some extra := by
  induction extra with
  | nil => rfl
  | cons m r ih =>
      obtain ⟨k, v⟩ := m
      obtain ⟨hk, hr⟩ := List.nodup_cons.mp hnames
      rw [List.forall_mem_cons] at hothers hvalues
      rw [named, List.map_cons, ← named, buildExtra?, if_neg hothers.1, build?_raw hvalues.1,
        ih hr hothers.2 hvalues.2]
      simp only [if_neg (mt Assoc.any_iff_mem.mp hk)]

/-- Claims as they come of a text: times of 64 bits, and remaining members under different names that are none of
the fields', with values that a text stands for. -/
structure IsReadable (c : Claims) : Prop where
  exp : ∀ n, c.exp = some n → Word.IsSigned n
  nbf : ∀ n, c.nbf = some n → Word.IsSigned n
  iat : ∀ n, c.iat = some n → Word.IsSigned n
  names : (c.extra.map Prod.fst).Nodup
  others : ∀ m ∈ c.extra, m.1 ∉ fieldNames
  values : ∀ m ∈ c.extra, Readable (maxDepth - 1) m.2

variable {c : Claims}

theorem IsReadable.nodup (h : c.IsReadable) : ((c.fields ++ c.extra).map Prod.fst).Nodup := by
  have hfields := c.names_fields
  rw [List.map_append, List.nodup_append]
  refine ⟨hfields.nodup (by decide), h.names, fun n hn m hm he => ?_⟩
  obtain ⟨p, hp, rfl⟩ := List.mem_map.mp hm
  exact h.others p hp (he ▸ hfields.subset hn)

theorem readable_of_mem_member {α : Type} {name : Text} {value : α → Json} {v : Option α} {depth : Nat}
    (h : ∀ a, v = some a → Readable depth (value a)) : ∀ m ∈ member name value v, Readable depth m.2 := by
  cases v with
  | none => exact fun _ h => absurd h List.not_mem_nil
  | some a =>
      intro m hm
      obtain rfl := List.mem_singleton.mp hm
      exact h a rfl

theorem IsReadable.toJson (h : c.IsReadable) : Readable maxDepth c.toJson := by
  rw [toJson_eq]
  refine .object h.nodup ?_
  simp only [fields, List.forall_mem_append]
  refine ⟨⟨⟨⟨⟨⟨⟨?iss, ?sub⟩, ?aud⟩, ?exp⟩, ?nbf⟩, ?iat⟩, ?scope⟩, h.values⟩
  case iss | sub | scope => exact readable_of_mem_member fun _ _ => .string
  case exp => exact readable_of_mem_member fun n hn => .int (h.exp n hn).isInteger
  case nbf => exact readable_of_mem_member fun n hn => .int (h.nbf n hn).isInteger
  case iat => exact readable_of_mem_member fun n hn => .int (h.iat n hn).isInteger
  case aud =>
    refine readable_of_mem_member fun aud _ => .array fun v hv => ?_
    obtain ⟨t, -, rfl⟩ := List.mem_map.mp hv
    exact .string

theorem IsReadable.ofRaw? (h : c.IsReadable) : Claims.ofRaw? c.toJson.raw = some c := by
  have hfields : ∀ m ∈ named c.fields, m.1 ∈ fieldNames := by
    intro m hm
    obtain ⟨p, hp, rfl⟩ := List.mem_map.mp hm
    exact c.names_fields.subset (List.mem_map_of_mem hp)
  have hextra : buildExtra? (named (c.fields ++ c.extra)) = some c.extra := by
    rw [named, List.map_append, ← named, ← named, buildExtra?_fields hfields,
      buildExtra?_named h.names h.others h.values]
  have hlookup : (fieldNames.map fun n => ((c.fields ++ c.extra).lookup n).map raw) =
      c.values.map (Option.map raw) := by
    rw [← lookup_fields, List.map_map]
    refine List.map_congr_left fun n hn => ?_
    have hnone : c.extra.lookup n = none := by
      rw [List.lookup_eq_none_iff]
      exact fun m hm => bne_iff_ne.mpr fun he => h.others m hm (he ▸ hn)
    rw [List.lookup_append, hnone, Option.or_none]
    rfl
  obtain ⟨f, hf⟩ : ∃ f : Raw.Fields, f = ⟨c.values.map (Option.map raw), false⟩ := ⟨_, rfl⟩
  have hiss : f.optional? 0 text? = some c.iss := optional?_string (hf ▸ rfl)
  have hsub : f.optional? 1 text? = some c.sub := optional?_string (hf ▸ rfl)
  have haud : f.withDefault? 2 [] audience? = some c.aud := withDefault?_audience (hf ▸ rfl)
  have hexp : f.optional? 3 int64? = some c.exp := optional?_int h.exp (hf ▸ rfl)
  have hnbf : f.optional? 4 int64? = some c.nbf := optional?_int h.nbf (hf ▸ rfl)
  have hiat : f.optional? 5 int64? = some c.iat := optional?_int h.iat (hf ▸ rfl)
  have hscope : f.optional? 6 text? = some c.scope := optional?_string (hf ▸ rfl)
  rw [toJson_eq, raw]
  simp only [Claims.ofRaw?, names?_rawMembers, mapM_only? h.nodup, hlookup, hextra, ← hf, hiss, hsub, haud, hexp, hnbf,
    hiat, hscope, Option.bind_eq_bind, Option.bind_some]
  rfl

theorem IsReadable.parse?_print (h : c.IsReadable) : parse? (Utf8.encode c.toJson.print) = some c := by
  rw [parse?, ← printed, parse?_printed h.toJson]
  exact h.ofRaw?

theorem exists_of_buildExtra? {members : List (Text × Raw)} {extra : List (Text × Json)}
    (h : buildExtra? members = some extra) :
    (extra.map Prod.fst).Nodup ∧
      ∀ m ∈ extra, m.1 ∉ fieldNames ∧ ∃ r, Raw.build? (maxDepth - 1) r = some m.2 := by
  induction members generalizing extra with
  | nil =>
      obtain rfl := Option.some.inj h
      exact ⟨List.nodup_nil, fun _ h => absurd h List.not_mem_nil⟩
  | cons m members ih =>
      obtain ⟨k, r⟩ := m
      rw [buildExtra?] at h
      split at h
      · exact ih h
      · rename_i hk
        split at h
        · rename_i v l hv hl
          obtain rfl := Option.some.inj h
          obtain ⟨hnames, hvalues⟩ := ih hl
          refine ⟨nodup_enter hnames, fun m hm => ?_⟩
          rcases mem_enter hm with rfl | hm
          · exact ⟨hk, r, hv⟩
          · exact hvalues m hm
        · cases h

theorem isReadable_of_parse? {payload : Bytes} (h : parse? payload = some c) (hwhole : ∀ m ∈ c.extra, m.2.IsWhole) :
    c.IsReadable := by
  obtain ⟨object, members, values, -, -, -, -, hexp, hnbf, hiat, hextra⟩ := parse?_eq_some h
  obtain ⟨hnames, hvalues⟩ := exists_of_buildExtra? hextra
  exact
    { exp := fun n => optional?_int64?_isSigned hexp
      nbf := fun n => optional?_int64?_isSigned hnbf
      iat := fun n => optional?_int64?_isSigned hiat
      names := hnames
      others := fun m hm => (hvalues m hm).1
      values := fun m hm =>
        have ⟨_, r, hr⟩ := hvalues m hm
        readable_of_build? hr (hwhole m hm) }

theorem isReadable_sorted_iff : c.sorted.IsReadable ↔ c.IsReadable := by
  have hnames := (names_sorted_perm c.extra).nodup_iff
  have hothers : (∀ m ∈ c.sorted.extra, m.1 ∉ fieldNames) ↔ ∀ m ∈ c.extra, m.1 ∉ fieldNames := forall_mem_sorted
  have hvalues : (∀ m ∈ c.sorted.extra, Readable (maxDepth - 1) m.2) ↔
      ∀ m ∈ c.extra, Readable (maxDepth - 1) m.2 :=
    forall_mem_sorted.trans (forall₂_congr fun m _ => readable_sorted_iff _ m.2)
  constructor
  · exact fun h => ⟨h.exp, h.nbf, h.iat, hnames.mp h.names, hothers.mp h.others, hvalues.mp h.values⟩
  · exact fun h => ⟨h.exp, h.nbf, h.iat, hnames.mpr h.names, hothers.mpr h.others, hvalues.mpr h.values⟩

theorem sorted_sorted (c : Claims) : c.sorted.sorted = c.sorted := by
  simp only [sorted, sortedMembers_byName, sortedMembers_sortedMembers, byName_byName]

/-- Claims that differ at most in the order in which members are kept. -/
def Same (c d : Claims) : Prop := c.sorted = d.sorted

theorem Same.isReadable {d : Claims} (h : d.Same c) (hc : c.IsReadable) : d.IsReadable :=
  isReadable_sorted_iff.mp (h ▸ isReadable_sorted_iff.mpr hc)

/-- Claims survive being written, unless a remaining one holds a number with a fraction or an exponent. No remaining
claim has the name of a field; in whatever order they are written, they are read as they are; and what their own
text is read as has the same fields, the same remaining claims and the same text. -/
theorem survives {payload : Bytes} (h : parse? payload = some c) (hwhole : ∀ m ∈ c.extra, m.2.IsWhole) :
    (∀ m ∈ c.extra, m.1 ∉ fieldNames) ∧
      (∀ d : Claims, d.Same c → parse? (Utf8.encode d.toJson.print) = some d) ∧
        ∃ d : Claims, parse? (Utf8.encode c.text) = some d ∧ { d with extra := c.extra } = c ∧
          (∀ n, d.extra.lookup n = (c.extra.lookup n).map Json.sorted) ∧ d.Same c ∧ d.text = c.text := by
  have hc := isReadable_of_parse? h hwhole
  have hreread (d : Claims) (hd : d.Same c) := (hd.isReadable hc).parse?_print
  refine ⟨hc.others, hreread, c.sorted, hreread _ c.sorted_sorted, rfl, fun n => ?_, c.sorted_sorted, ?_⟩
  · exact lookup_sorted hc.names n
  · rw [text, text, c.sorted_sorted]

def nestedPayload : Bytes := Utf8.encode
  ("\x7b\"roles\":\x7b\"b\":[1,null],\"a\":18446744073709551615\x7d,\"aud\":\"svc\",\"sub\":null,\"exp\":-5," ++
    "\"azp\":\"\\u00e9\\n\"\x7d")

def nestedClaims : Claims where
  iss := none
  sub := none
  aud := ["svc"]
  exp := some (-5)
  nbf := none
  iat := none
  scope := none
  extra :=
    [("roles", .object [("b", .array [.int 1, .null]), ("a", .int 18446744073709551615)]), ("azp", .string "é\n")]

def nestedSorted : List (Text × Json) :=
  [("azp", .string "é\n"), ("roles", .object [("a", .int 18446744073709551615), ("b", .array [.int 1, .null])])]

def nestedText : Text :=
  "\x7b\"aud\":[\"svc\"],\"exp\":-5,\"azp\":\"é\\n\"," ++
    "\"roles\":\x7b\"a\":18446744073709551615,\"b\":[1,null]\x7d\x7d"

theorem survives_nested :
    parse? nestedPayload = some nestedClaims ∧ nestedClaims.text = nestedText ∧
      ∃ d : Claims, parse? (Utf8.encode nestedText) = some d ∧ d.Same nestedClaims ∧ d.text = nestedText := by
  have hparse : parse? nestedPayload = some nestedClaims := by decide +kernel
  have hroles : (Json.object [("b", .array [.int 1, .null]), ("a", .int 18446744073709551615)]).IsWhole := by
    refine .object (List.forall_mem_cons.mpr ⟨.array ?_, List.forall_mem_singleton.mpr .int⟩)
    exact List.forall_mem_cons.mpr ⟨.int, List.forall_mem_singleton.mpr .null⟩
  have hwhole : ∀ m ∈ nestedClaims.extra, m.2.IsWhole :=
    List.forall_mem_cons.mpr ⟨hroles, List.forall_mem_singleton.mpr .string⟩
  have hsorted : byName (sortedMembers nestedClaims.extra) = nestedSorted := by
    simp [nestedClaims, nestedSorted, Json.sorted, sortedMembers, sortedItems, byName, List.mergeSort, Text.precedes]
  have htext : nestedClaims.text = nestedText := by
    rw [text, sorted, hsorted]
    decide +kernel
  obtain ⟨-, -, d, hd, -, -, hsame, hagain⟩ := survives hparse hwhole
  rw [htext] at hd hagain
  exact ⟨hparse, htext, d, hd, hsame, hagain⟩

end Claims

end BearerGate
