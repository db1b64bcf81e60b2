import BearerGate.Proofs.Run.Alone
import BearerGate.Proofs.Run.Returned
import Mathlib.Order.Interval.Set.Defs

namespace BearerGate.Run

open Cache

variable {rules : GateRules} {f : Nat → Nat} {p : Nat → Prop} [DecidablePred p] {i : Text} {s s' : Run}
  {a : Action} {k : Option Action} {epoch : Int} {l : List Action} {id : Nat}

theorem Mirrored.starts (h : Mirrored f p i s s')
    (h' : Mirrored f p i (s.step rules a) (after rules s' k.toList)) :
    starts rules s' k.toList = (startedBy rules s a).filter (·.1.issuer = i) := by
  have hk : Run.starts rules s' k.toList =
      (after rules s' k.toList).gate.cache.flights.filter fun x => ¬s'.InFlight x.1 := by
    cases k with
    | none => exact (filter_not_inFlight s').symm
    | some b => exact List.append_nil _
  rw [hk, h'.cache.flights, startedBy, List.filter_filter, List.filter_filter]
  apply List.filter_congr
  intro x _
  by_cases hx : x.1.issuer = i
  · simp [hx, h.inFlight hx]
  · simp [hx]

theorem Mirrored.endings (h : Mirrored f p i s s')
    (h' : Mirrored f p i (s.step rules a) (after rules s' k.toList)) (hp : p id) :
    endings rules (Nat.count p id) s' k.toList =
      (endedBy rules id s a).map fun x => (x.1, x.2.renumber f) := by
  have hk : Run.endings rules (Nat.count p id) s' k.toList =
      if (s'.result? (Nat.count p id)).isSome then []
      else ((after rules s' k.toList).result? (Nat.count p id)).toList.map
        ((after rules s' k.toList).now, ·) := by
    cases k with
    | none =>
        cases hx : s'.result? (Nat.count p id) with
        | none => simp [after, Run.endings, trace, hx]
        | some x => simp [Run.endings, trace]
    | some b => exact List.append_nil _
  rw [hk, h.result? hp, h'.result? hp, h'.now, endedBy, Option.isSome_map]
  split
  · rfl
  · cases (s.step rules a).result? id <;> rfl

theorem getElem?_requests {r : Request} (h : (requests l)[id]? = some r) (l' : List Action) :
    (requests (l ++ l'))[id]? = some r := by
  have hsplit : requests (l ++ l') = requests l ++ requests l' := List.filterMap_append
  rw [hsplit, List.getElem?_append_left (List.getElem?_eq_some_iff.mp h).1]
  exact h

theorem waits_after (hl : ∀ r ∈ requests l, r.OfCache) {q : Pending}
    (hq : (after rules { epoch := epoch } l).pending? id = some q) :
    ∃ r, (requests l)[id]? = some r ∧ q.OfCache ∧ r.issuer? rules = some q.ticket.issuer := by
  induction l using List.reverseRecOn generalizing q with
  | nil => cases hq
  | append_singleton l a ih =>
      rw [requests_concat] at hl
      have hold : ∀ q, (after rules { epoch := epoch } l).pending? id = some q →
          ∃ r, (requests l)[id]? = some r ∧ q.OfCache ∧ r.issuer? rules = some q.ticket.issuer :=
        fun q => ih fun r hr => hl r (List.mem_append_left _ hr)
      rw [after_concat] at hq
      rcases calls_step_cases (pending?_eq_some_iff.mp hq) with hsame | ⟨r, rfl, hid, hk⟩ | ⟨q', o, -, hq', -, hk⟩
      · obtain ⟨r, hr, hw⟩ := hold q (pending?_eq_some_iff.mpr hsame)
        exact ⟨r, getElem?_requests hr [a], hw⟩
      · refine ⟨r, ?_, Gate.start_waiting (hl r (by simp [Action.request?])) hk.symm⟩
        rw [requests_concat, hid, length_calls]
        exact List.getElem?_concat_length
      · obtain ⟨-, -, hc, -⟩ := hold q' hq'
        obtain ⟨x, hx⟩ := Gate.proceed_ended hc o
        cases hk.trans hx

def Concerns (rules : GateRules) (l : List Action) (i : Text) (id : Nat) : Prop :=
  (requests l)[id]?.bind (Request.issuer? rules) = some i

instance (rules : GateRules) (l : List Action) (i : Text) : DecidablePred (Concerns rules l i) :=
  fun _ => inferInstanceAs (Decidable (_ = _))

/-- The number of the call when no calls are made that do not concern the issuer. -/
def ownId (rules : GateRules) (l : List Action) (i : Text) : Nat → Nat := Nat.count (Concerns rules l i)

/-- The generation when no documents of other issuers come in. -/
def ownGeneration (rules : GateRules) (epoch : Int) (l : List Action) (i : Text) : Nat → Nat :=
  Nat.count fun n => (draws rules { epoch := epoch } l)[n]? = some i

def alone (rules : GateRules) (epoch : Int) (l : List Action) (i : Text) (l₁ : List Action) : List Action :=
  l₁.filterMap (keep? rules (ownGeneration rules epoch l i) (Concerns rules l i) i)

/-- The issuer by itself: its slot, its record, its fetches with the times of their starts and how and when its
calls end are those of the whole run, when the generations are numbered anew in their order. -/
structure Isolated (rules : GateRules) (epoch : Int) (l : List Action) (i : Text) : Prop where
  monotone : Monotone (ownGeneration rules epoch l i)
  strictMonoOn : StrictMonoOn (ownGeneration rules epoch l i)
    {n | ∃ r, (i, r) ∈ stores rules { epoch := epoch } l ∧ r.generation = n}
  slot : ∀ l₁, l₁ <+: l → (after rules { epoch := epoch } (alone rules epoch l i l₁)).gate.cache.slot? i =
    ((after rules { epoch := epoch } l₁).gate.cache.slot? i).map (·.renumber (ownGeneration rules epoch l i))
  peek : ∀ l₁, l₁ <+: l → ∀ url j, rules.trust.resolve? url = some j → j.url = i →
    (after rules { epoch := epoch } (alone rules epoch l i l₁)).gate.cache.peek? rules.trust url =
      ((after rules { epoch := epoch } l₁).gate.cache.peek? rules.trust url).map
        (·.renumber (ownGeneration rules epoch l i))
  starts : starts rules { epoch := epoch } (alone rules epoch l i l) =
    (starts rules { epoch := epoch } l).filter (·.1.issuer = i)
  endings : ∀ id, Concerns rules l i id →
    endings rules (ownId rules l i id) { epoch := epoch } (alone rules epoch l i l) =
      (endings rules id { epoch := epoch } l).map fun x => (x.1, x.2.renumber (ownGeneration rules epoch l i))

theorem alone_concat (l₁ : List Action) (a : Action) :
    alone rules epoch l i (l₁ ++ [a]) =
      alone rules epoch l i l₁ ++
        (keep? rules (ownGeneration rules epoch l i) (Concerns rules l i) i a).toList := by
  rw [alone, List.filterMap_append, alone]
  cases h : keep? rules (ownGeneration rules epoch l i) (Concerns rules l i) i a <;> simp [h]

theorem drawnBy_of_mem {j : Text} (h : j ∈ drawnBy s a) : drawnBy s a = [j] := by
  cases a with
  | pass | call | resume => cases h
  | land t result =>
      cases result with
      | error e => cases h
      | ok d =>
          rw [drawnBy] at h ⊢
          split at h
          · rename_i ht
            rw [if_pos ht, List.mem_singleton.mp h]
          · cases h

theorem ownGeneration_succ {l₁ l₂ : List Action} (hsplit : l = l₁ ++ a :: l₂) {j : Text}
    (hj : j ∈ drawnBy (after rules { epoch := epoch } l₁) a) :
    ownGeneration rules epoch l i ((after rules { epoch := epoch } l₁).gate.cache.generation + 1) =
      ownGeneration rules epoch l i (after rules { epoch := epoch } l₁).gate.cache.generation +
        if j = i then 1 else 0 := by
  have hdrawn : (draws rules { epoch := epoch } l)[(after rules { epoch := epoch } l₁).gate.cache.generation]? =
      some j := by
    rw [generation_after, hsplit, draws, trace_append, trace, drawnBy_of_mem hj, ← draws]
    simp
  simp only [ownGeneration, Nat.count_succ, hdrawn, Option.some.injEq]

theorem mirrored_alone (rules : GateRules) (hl : ∀ r ∈ requests l, r.OfCache) (epoch : Int) (i : Text)
    {l₁ l₂ : List Action} (hsplit : l = l₁ ++ l₂) :
    Mirrored (ownGeneration rules epoch l i) (Concerns rules l i) i (after rules { epoch := epoch } l₁)
      (after rules { epoch := epoch } (alone rules epoch l i l₁)) := by
  -- The numbers are those of the whole run from the start, so that they stay the same while the prefix grows.
  induction l₁ using List.reverseRecOn generalizing l₂ with
  | nil =>
      refine ⟨rfl, ⟨rfl, rfl, fun t _ => rfl, ?_, fun r hr => ?_⟩, .nil⟩
      · exact (Nat.count_zero _).symm
      · cases hr
  | append_singleton l₁ a ih =>
      have hsplit' : l = l₁ ++ a :: l₂ := by simpa using hsplit
      rw [alone_concat, after_concat, after_append]
      refine (ih hsplit').step (Nat.count_monotone _) ?_ ?_ fun j hj => ownGeneration_succ hsplit' hj
      · rintro r rfl
        have hr : (requests l)[(after rules { epoch := epoch } l₁).calls.length]? = some r := by
          rw [hsplit, length_calls]
          apply getElem?_requests
          rw [requests_concat]
          exact List.getElem?_concat_length
        refine ⟨hl r (List.mem_of_getElem? hr), ?_⟩
        rw [Concerns, hr, Option.bind_some]
      · intro id q hq
        have hl₁ : ∀ r ∈ requests l₁, r.OfCache := by
          intro r hr
          obtain ⟨n, hn⟩ := List.mem_iff_getElem?.mp hr
          exact hl r (List.mem_of_getElem? (hsplit' ▸ getElem?_requests hn (a :: l₂)))
        obtain ⟨r, hr, hc, hi⟩ := waits_after hl₁ hq
        refine ⟨hc, ?_⟩
        rw [Concerns, hsplit', getElem?_requests hr, Option.bind_some, hi, Option.some.injEq]

theorem trace_alone {β γ : Type} {u : Run → Action → List β} {u' : Run → Action → List γ} {F : List β → List γ}
    (hnil : F [] = []) (happend : ∀ x y, F (x ++ y) = F x ++ F y)
    (hstep : ∀ {s s' a k}, Mirrored (ownGeneration rules epoch l i) (Concerns rules l i) i s s' →
      Mirrored (ownGeneration rules epoch l i) (Concerns rules l i) i (s.step rules a)
        (after rules s' (Option.toList k)) → trace rules u' s' k.toList = F (u s a))
    (hl : ∀ r ∈ requests l, r.OfCache) {l₁ l₂ : List Action} (hsplit : l = l₁ ++ l₂) :
    trace rules u' { epoch := epoch } (alone rules epoch l i l₁) = F (trace rules u { epoch := epoch } l₁) := by
  induction l₁ using List.reverseRecOn generalizing l₂ with
  | nil => exact hnil.symm
  | append_singleton l₁ a ih =>
      have hsplit' : l = l₁ ++ a :: l₂ := by simpa using hsplit
      have hnext := mirrored_alone rules hl epoch i hsplit
      rw [alone_concat, after_concat, after_append] at hnext
      rw [alone_concat, trace_append, ih hsplit', hstep (mirrored_alone rules hl epoch i hsplit') hnext, trace_concat,
        happend]

theorem ranked_of_mem_stores {r : Record} (h : (i, r) ∈ stores rules { epoch := epoch } l) :
    r.Ranked (ownGeneration rules epoch l i) := by
  obtain ⟨l₁, a, l₂, hsplit, hx⟩ := mem_trace.mp h
  obtain ⟨t, result, rfl, ht, hi, ho⟩ := mem_storedBy.mp hx
  obtain ⟨-, hg, hd⟩ := outcome_windowed ho
  have hj : t.issuer ∈ drawnBy (after rules { epoch := epoch } l₁) (.land t result) := by
    cases result with
    | error e => cases hd
    | ok d => simp [drawnBy, ht]
  have hsucc := ownGeneration_succ (i := i) hsplit hj
  rw [if_pos hi.symm] at hsucc
  exact ranked_of_succ (Nat.count_monotone _) hsucc hg

/-- Issuers do not affect one another. -/
theorem isolated (hl : ∀ r ∈ requests l, r.OfCache) (rules : GateRules) (epoch : Int) (i : Text) :
    Isolated rules epoch l i where
  monotone := Nat.count_monotone _
  strictMonoOn := by
    rintro m - n ⟨r, hr, rfl⟩ hlt
    exact (ranked_of_mem_stores hr m).mpr hlt
  slot l₁ h := by
    obtain ⟨l₂, hsplit⟩ := h
    exact (mirrored_alone rules hl epoch i hsplit.symm).cache.slot?
  peek l₁ h url j hj hi := by
    obtain ⟨l₂, hsplit⟩ := h
    rw [peek?, hj, Option.bind_some, peek?, hj, Option.bind_some, hi]
    exact (mirrored_alone rules hl epoch i hsplit.symm).cache.record?
  starts := trace_alone List.filter_nil (fun _ _ => List.filter_append ..) (fun h h' => h.starts h') hl
    (List.append_nil l).symm
  endings id hid := trace_alone List.map_nil (fun _ _ => List.map_append) (fun h h' => h.endings h' hid) hl
    (List.append_nil l).symm

def twoRules : GateRules :=
  { abcRules with
    trust := .ofSettings
      { issuers :=
          [⟨"https://idp.example/abc", some "t", false, []⟩, ⟨"https://idp.example/xyz", some "u", false, []⟩] } }

def xyzDocument : Document :=
  { abcDocument with metadata := { abcDocument.metadata with issuer := "https://idp.example/xyz" } }

def laterRecord : Record :=
  { abcRecord with fetchedAt := 10, expiresAt := 3600010, usableUntil := 90000010, generation := 2 }

def twoRun : List Action :=
  [.call (.get "https://idp.example/xyz"), .call (.get "https://idp.example/abc"),
    .land ⟨"https://idp.example/xyz", 0⟩ (.ok xyzDocument), .pass 10,
    .land ⟨"https://idp.example/abc", 0⟩ (.ok abcDocument), .resume 1, .call (.refresh laterRecord),
    .land ⟨"https://idp.example/abc", 1⟩ (.ok abcDocument), .resume 2, .resume 0,
    .call (.forget "https://idp.example/xyz")]

theorem isolated_two :
    (stores twoRules { epoch := 0 } twoRun).map (fun x => (x.1, x.2.generation)) =
        ([("https://idp.example/xyz", 1), ("https://idp.example/abc", 2), ("https://idp.example/abc", 3)] :
          List (Text × Nat)) ∧
      [1, 2, 3].map (ownGeneration twoRules 0 twoRun "https://idp.example/abc") = [0, 1, 2] ∧
        Isolated twoRules 0 twoRun "https://idp.example/abc" := by
  have hl : ∀ r ∈ requests twoRun, r.OfCache := by
    simp only [requests, twoRun, List.filterMap, Action.request?, List.forall_mem_cons, Request.OfCache]
    simp
  refine ⟨?_, ?_, isolated hl twoRules 0 "https://idp.example/abc"⟩
  · decide +kernel
  · decide +kernel

end BearerGate.Run
