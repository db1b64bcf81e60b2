import BearerGate.Proofs.Run.Acceptance

namespace BearerGate

open Cache

def Call.Given (Q : Text → Outcome → Prop) : Call → Prop
  | .ended (.record (.ok r)) => ∃ i, Q i (.ok r)
  | _ => True

theorem Call.Given.mono {Q Q' : Text → Outcome → Prop} {k : Call} (h : k.Given Q)
    (hQ : ∀ i o, Q i o → Q' i o) : k.Given Q' := by
  cases k with
  | waiting p => trivial
  | ended x =>
      cases x with
      | record a =>
          cases a with
          | ok r =>
              obtain ⟨i, hr⟩ := h
              exact ⟨i, hQ i _ hr⟩
          | error f => trivial
      | refreshed | verdict | evicted => trivial

namespace Gate

variable {rules : GateRules} {Q : Text → Outcome → Prop} {now : Millis} {unix : Int} {g : Gate}

theorem ofProgress_given (counted : Bool) (x : Gate × Progress) : (ofProgress counted x).2.Given Q := by
  obtain ⟨g, p⟩ := x
  cases p <;> trivial

theorem ofSweep_given (x : Cache × Sweep) : (g.ofSweep x).2.Given Q := by
  obtain ⟨c, w⟩ := x
  cases w <;> trivial

theorem ofLookup_given {i : Text} {x : Cache × Reply (Except AuthFault Record)} (h : Replied Q i x.2)
    (f : Ticket → Pending) : (g.ofLookup x f).2.Given Q := by
  obtain ⟨c, a⟩ := x
  cases a with
  | wait t => trivial
  | done a =>
      cases a with
      | ok r => exact ⟨i, h⟩
      | error f => trivial

theorem start_given (hc : g.cache.Holds Q) (r : Request) : (g.start rules now unix r).2.Given Q := by
  cases r with
  | get url =>
      cases hj : rules.cache.trust.resolve? url with
      | none =>
          rw [start, get_untrusted rules.cache hj]
          trivial
      | some j => exact ofLookup_given (hc.get rules.cache now hj) _
  | refresh seen => exact ofLookup_given (hc.refresh rules.cache now seen) _
  | sweep horizon order => exact ofSweep_given _
  | verify token | authenticate token => exact ofProgress_given _ _
  | evict | forget => trivial

theorem given_of_told {i : Text} {a : Except AuthFault Record} (h : Told Q i a) :
    (Call.ended (.record a)).Given Q := by
  cases a with
  | ok r => exact ⟨i, h⟩
  | error f => trivial

theorem proceed_given (hc : g.cache.Holds Q) {p : Pending} {o : Outcome} (ho : Q p.ticket.issuer o) :
    (g.proceed rules now unix o p).2.Given Q := by
  cases p with
  | get t => exact given_of_told (hc.finishGet now ho)
  | refresh t => exact given_of_told (finishRefresh_told ho)
  | sweep t rest n => exact ofSweep_given _
  | attempt a counted => exact ofProgress_given _ _

end Gate

namespace Run

variable {rules : GateRules} {s : Run} {l : List Action} {r : Record} {i : Text}

theorem Landed.issuer (h : Landed rules s l i (.ok r)) : r.issuer = i := by
  obtain ⟨d, -, hd⟩ := h.fetched
  exact hd.issuer

theorem Landed.append {o : Outcome} (h : Landed rules s l i o) (l' : List Action) :
    Landed rules s (l ++ l') i o := by
  obtain ⟨t, ht, hl⟩ := h
  exact ⟨t, ht, hl.append l'⟩

theorem given_after (rules : GateRules) (epoch : Int) (l : List Action) {id : Nat} {k : Call}
    (hk : (after rules { epoch := epoch } l).calls[id]? = some k) :
    k.Given (Landed rules { epoch := epoch } l) := by
  induction l using List.reverseRecOn generalizing k with
  | nil => cases hk
  | append_singleton l a ih =>
      have hmono : ∀ i o, Landed rules { epoch := epoch } l i o →
          Landed rules { epoch := epoch } (l ++ [a]) i o := fun i o h => h.append [a]
      have hc := (sound_after rules epoch l).cache
      rw [after_concat] at hk
      apply Call.Given.mono _ hmono
      rcases calls_step_cases hk with hold | ⟨q, -, -, rfl⟩ | ⟨p, o, -, -, ho, rfl⟩
      · exact ih hold
      · exact Gate.start_given hc q
      · exact Gate.proceed_given hc (hc.outcome? ho)

/-- In the course of the actions the cache has given the record away: a call has ended with it, or it was
there to be looked at. -/
def Returned (rules : GateRules) (s : Run) (l : List Action) (r : Record) : Prop :=
  ∃ l₁, l₁ <+: l ∧ ((∃ id, (after rules s l₁).result? id = some (.record (.ok r))) ∨
    ∃ url, (after rules s l₁).gate.cache.peek? rules.trust url = some r)

/-- A record that was given away came with a fetch of its issuer. -/
theorem Returned.landed {epoch : Int} (h : Returned rules { epoch := epoch } l r) :
    Landed rules { epoch := epoch } l r.issuer (.ok r) := by
  obtain ⟨l₁, ⟨l₂, rfl⟩, hr⟩ := h
  suffices hland : ∃ i, Landed rules { epoch := epoch } l₁ i (.ok r) by
    obtain ⟨i, hi⟩ := hland
    rw [hi.issuer]
    exact hi.append l₂
  rcases hr with ⟨id, hr⟩ | ⟨url, hr⟩
  · exact given_after rules epoch l₁ (result?_eq_some_iff.mp hr)
  · obtain ⟨j, -, hr⟩ := Option.bind_eq_some_iff.mp hr
    exact ⟨j.url, (sound_after rules epoch l₁).cache.record? hr⟩

def abcRecord : Record where
  issuer := "https://idp.example/abc"
  metadata := abcDocument.metadata
  keys := .ofJwks abcDocument.jwks
  fetchedAt := 0
  expiresAt := 3600000
  usableUntil := 90000000
  generation := 1

end Run

end BearerGate
