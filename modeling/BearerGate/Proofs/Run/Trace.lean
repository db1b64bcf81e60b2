import BearerGate.Proofs.Run.Windows

namespace BearerGate.Run

open Cache

variable {rules : GateRules} {s : Run} {l : List Action} {β : Type}

/-- What is seen in the course of the actions when `f` says what one action shows. -/
def trace (rules : GateRules) (f : Run → Action → List β) : Run → List Action → List β
  | _, [] => []
  | s, a :: l => f s a ++ trace rules f (s.step rules a) l

section Trace

variable {f : Run → Action → List β} {x : β}

theorem trace_append (s : Run) (l l' : List Action) :
    trace rules f s (l ++ l') = trace rules f s l ++ trace rules f (after rules s l) l' := by
  induction l generalizing s with
  | nil => rfl
  | cons a l ih => rw [List.cons_append, trace, ih, trace, List.append_assoc, after_cons]

theorem trace_concat (s : Run) (l : List Action) (a : Action) :
    trace rules f s (l ++ [a]) = trace rules f s l ++ f (after rules s l) a := by
  rw [trace_append]
  simp [trace]

theorem mem_trace : x ∈ trace rules f s l ↔ ∃ l₁ a l₂, l = l₁ ++ a :: l₂ ∧ x ∈ f (after rules s l₁) a := by
  constructor
  · intro h
    induction l using List.reverseRecOn with
    | nil => cases h
    | append_singleton l a ih =>
        rw [trace_concat, List.mem_append] at h
        rcases h with h | h
        · obtain ⟨l₁, b, l₂, rfl, hb⟩ := ih h
          exact ⟨l₁, b, l₂ ++ [a], by simp, hb⟩
        · exact ⟨l, a, [], rfl, h⟩
  · rintro ⟨l₁, a, l₂, rfl, hx⟩
    rw [trace_append, trace]
    exact List.mem_append_right _ (List.mem_append_left _ hx)

end Trace

theorem filter_not_inFlight (s : Run) : s.gate.cache.flights.filter (fun f => ¬s.InFlight f.1) = [] := by
  rw [List.filter_eq_nil_iff]
  intro f hf
  have hin : s.InFlight f.1 := List.mem_map_of_mem hf
  simp [hin]

/-- The fetches that are under way after an action and were not before, with the times of their start. -/
def startedBy (rules : GateRules) (s : Run) (a : Action) : List (Ticket × Millis) :=
  (s.step rules a).gate.cache.flights.filter fun f => ¬s.InFlight f.1

def starts (rules : GateRules) : Run → List Action → List (Ticket × Millis) := trace rules (startedBy rules)

theorem startedBy_of_flights {a : Action} (h : (s.step rules a).gate.cache.flights = s.gate.cache.flights) :
    startedBy rules s a = [] := by
  rw [startedBy, h, filter_not_inFlight]

def storedBy (rules : GateRules) (s : Run) : Action → List (Text × Record)
  | .land t result =>
    if s.InFlight t then
      match outcome rules.policy s.now t.issuer s.gate.cache.generation result with
      | .ok r => [(t.issuer, r)]
      | .error _ => []
    else []
  | _ => []

def stores (rules : GateRules) : Run → List Action → List (Text × Record) := trace rules (storedBy rules)

def drawnBy (s : Run) : Action → List Text
  | .land t (.ok _) => if s.InFlight t then [t.issuer] else []
  | _ => []

/-- The issuers of the documents, in the order in which they draw their generations. -/
def draws (rules : GateRules) : Run → List Action → List Text := trace rules drawnBy

def endedBy (rules : GateRules) (id : Nat) (s : Run) (a : Action) : List (Millis × Result) :=
  if (s.result? id).isSome then []
  else ((s.step rules a).result? id).toList.map ((s.step rules a).now, ·)

def endings (rules : GateRules) (id : Nat) : Run → List Action → List (Millis × Result) :=
  trace rules (endedBy rules id)

theorem mem_storedBy {a : Action} {x : Text × Record} :
    x ∈ storedBy rules s a ↔ ∃ t result, a = .land t result ∧ s.InFlight t ∧ x.1 = t.issuer ∧
      outcome rules.policy s.now t.issuer s.gate.cache.generation result = .ok x.2 := by
  constructor
  · intro hx
    cases a with
    | pass | call | resume => cases hx
    | land t result =>
        rw [storedBy] at hx
        split at hx
        · rename_i ht
          split at hx
          · rename_i r ho
            obtain rfl := List.mem_singleton.mp hx
            exact ⟨t, result, rfl, ht, rfl, ho⟩
          · cases hx
        · cases hx
  · rintro ⟨t, result, rfl, ht, hi, ho⟩
    rw [storedBy, if_pos ht, ho, ← hi]
    exact List.mem_singleton_self x

theorem mem_stores {i : Text} {r : Record} : (i, r) ∈ stores rules s l ↔ Landed rules s l i (.ok r) := by
  rw [stores, mem_trace]
  constructor
  · rintro ⟨l₁, a, l₂, rfl, hx⟩
    obtain ⟨t, result, rfl, ht, rfl, ho⟩ := mem_storedBy.mp hx
    exact ⟨t, rfl, l₁, result, l₂, rfl, ht, ho.symm⟩
  · rintro ⟨t, rfl, l₁, result, l₂, rfl, ht, ho⟩
    exact ⟨l₁, .land t result, l₂, rfl, mem_storedBy.mpr ⟨t, result, rfl, ht, rfl, ho.symm⟩⟩

theorem generation_step (rules : GateRules) (s : Run) (a : Action) :
    (s.step rules a).gate.cache.generation = s.gate.cache.generation + (drawnBy s a).length := by
  cases a with
  | pass d => rfl
  | call r => exact (Gate.start_changes r s.gate).generation
  | land t result =>
      by_cases ht : s.InFlight t
      · rw [step_land ht]
        cases result with
        | ok d => simp [drawnBy, ht, land, drawn]
        | error f => rfl
      · rw [step_land_of_not ht]
        cases result <;> simp [drawnBy, ht]
  | resume id =>
      rcases step_cache rules s (.resume id) with ⟨_, _, h, -⟩ | h
      · cases h
      · exact h.generation

theorem generation_after (rules : GateRules) (s : Run) (l : List Action) :
    (after rules s l).gate.cache.generation = s.gate.cache.generation + (draws rules s l).length := by
  induction l using List.reverseRecOn with
  | nil => rfl
  | append_singleton l a ih =>
      rw [after_concat, generation_step, ih, draws, trace_concat, List.length_append, Nat.add_assoc]

end BearerGate.Run
