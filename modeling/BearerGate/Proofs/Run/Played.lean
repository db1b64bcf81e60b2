import BearerGate.Proofs.Run.Calls
import BearerGate.Rehearsal

namespace BearerGate

namespace Rehearsal

variable {s s' s'' : Rehearsal} {α : Type}

def Plays (s s' : Rehearsal) : Prop :=
  s'.rules = s.rules ∧ ∃ l, s'.run = Run.after s.rules s.run l

theorem Plays.refl (s : Rehearsal) : s.Plays s := ⟨rfl, [], rfl⟩

theorem Plays.trans (h : s.Plays s') (h' : s'.Plays s'') : s.Plays s'' := by
  obtain ⟨hrules, l, hl⟩ := h
  obtain ⟨hrules', l', hl'⟩ := h'
  refine ⟨hrules'.trans hrules, l ++ l', ?_⟩
  rw [hl', hrules, hl, Run.after_append]

theorem Plays.reachable (h : s.Plays s') (hs : s.run.Reachable s.rules) : s'.run.Reachable s'.rules := by
  obtain ⟨hrules, l, hl⟩ := h
  obtain ⟨epoch, l₀, hs⟩ := hs
  refine ⟨epoch, l₀ ++ l, ?_⟩
  rw [hl, hs, hrules, Run.after_append]

theorem plays_act (a : Action) (s : Rehearsal) : s.Plays (s.act a) := ⟨rfl, [a], rfl⟩

theorem plays_foldl {f : Rehearsal → α → Rehearsal} (h : ∀ (s : Rehearsal) (x : α), s.Plays (f s x))
    (xs : List α) (s : Rehearsal) : s.Plays (xs.foldl f s) := by
  induction xs generalizing s with
  | nil => exact .refl s
  | cons x xs ih => exact (h s x).trans (ih (f s x))

theorem plays_landDue (s : Rehearsal) : s.Plays s.landDue :=
  plays_foldl (fun s (x : Arrival) => plays_act (.land x.ticket x.result) s) _ s

theorem plays_landIfDue (t : Ticket) (s : Rehearsal) : s.Plays (s.landIfDue t) := by
  rw [landIfDue]
  split
  · exact plays_act _ s
  · exact .refl s

theorem plays_pollFor (id n : Nat) (s : Rehearsal) : s.Plays (pollFor id n s) := by
  induction n generalizing s with
  | zero => exact .refl s
  | succ n ih =>
      rw [pollFor]
      split
      · exact .refl s
      · rename_i p _
        have hland := plays_landIfDue p.ticket s
        dsimp only
        split
        · exact hland.trans ((plays_act (.resume id) _).trans (ih _))
        · exact hland

theorem plays_poll (id : Nat) (s : Rehearsal) : s.Plays (s.poll id) := plays_pollFor id _ s

theorem plays_beginCall (r : Request) (s : Rehearsal) : s.Plays (s.beginCall r).1 :=
  (plays_act (.call r) s).trans (plays_poll _ _)

theorem plays_sweepIfDue (s : Rehearsal) : s.Plays s.sweepIfDue := by
  rw [sweepIfDue]
  split
  · exact .refl s
  · rename_i w _
    split
    · split
      · exact .refl s
      · exact plays_beginCall (.sweep w.every []) s
    · exact .refl s

theorem plays_settle (s : Rehearsal) : s.Plays s.settle :=
  ((plays_landDue s).trans (plays_foldl (fun s id => plays_poll id s) _ _)).trans (plays_sweepIfDue _)

theorem plays_driveFor (ids : List Nat) (n : Nat) (s : Rehearsal) : s.Plays (driveFor ids n s) := by
  induction n generalizing s with
  | zero => exact .refl s
  | succ n ih =>
      rw [driveFor]
      split
      · exact .refl s
      · split
        · rename_i d _
          exact (plays_act (.pass d) s).trans ((plays_settle _).trans (ih _))
        · exact .refl s

/-- A question is a call, followed by whatever happens until it is answered. -/
theorem ask_ends {r : Request} {x : Result} (h : (s.ask [r]).2 = [x]) : ∃ l, s.run.Ends s.rules r l x := by
  obtain ⟨-, l, hl⟩ : (s.act (.call r)).Plays (s.ask [r]).1 :=
    (plays_poll s.run.calls.length (s.act (.call r))).trans (plays_driveFor [s.run.calls.length] _ _)
  have hover : (s.ask [r]).1.run.result? s.run.calls.length = some x := by
    have hask : [s.run.calls.length].filterMap (s.ask [r]).1.run.result? = [x] := h
    cases hx : (s.ask [r]).1.run.result? s.run.calls.length with
    | none =>
        rw [List.filterMap_cons_none hx] at hask
        cases hask
    | some y =>
        rw [List.filterMap_cons_some hx] at hask
        obtain ⟨rfl, -⟩ := List.cons_eq_cons.mp hask
        rfl
  rw [hl] at hover
  obtain ⟨l', hends, -⟩ := Run.exists_ends hover
  exact ⟨l', hends⟩

end Rehearsal

end BearerGate
