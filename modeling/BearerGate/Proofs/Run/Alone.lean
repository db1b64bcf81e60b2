import BearerGate.Proofs.Cache.Renumbered
import BearerGate.Proofs.Picked
import BearerGate.Proofs.Run.Refresh
import BearerGate.Proofs.Run.Trace

namespace BearerGate

open Cache

def Request.OfCache : Request → Prop
  | .get _ | .refresh _ | .forget _ => True
  | _ => False

def Request.issuer? (rules : GateRules) : Request → Option Text
  | .get url => (rules.trust.resolve? url).map (·.url)
  | .refresh seen => some seen.issuer
  | .forget url => some (canonical rules.trust url)
  | _ => none

def Pending.OfCache : Pending → Prop
  | .get _ | .refresh _ => True
  | _ => False

def Request.renumber (f : Nat → Nat) : Request → Request
  | .refresh seen => .refresh (seen.renumber f)
  | r => r

def Result.renumber (f : Nat → Nat) : Result → Result
  | .record a => .record (a.map (·.renumber f))
  | x => x

def Call.renumber (f : Nat → Nat) : Call → Call
  | .waiting p => .waiting p
  | .ended x => .ended (x.renumber f)

namespace Gate

variable {rules : GateRules} {now : Millis} {unix : Int} {f : Nat → Nat} {i : Text} {g g' : Gate} {r : Request}
  {p : Pending}

theorem ofLookup_mirror {x y : Cache × Reply (Except AuthFault Record)} (h : Echoes f i x y)
    (k : Ticket → Pending) :
    Mirror f i (g.ofLookup x k).1.cache (g'.ofLookup y k).1.cache ∧
      (g'.ofLookup y k).2 = (g.ofLookup x k).2.renumber f := by
  obtain ⟨c, a⟩ := x
  obtain ⟨d, b⟩ := y
  obtain ⟨hm, rfl⟩ := h
  cases a <;> exact ⟨hm, rfl⟩

theorem start_mirror (now : Millis) (unix unix' : Int) (h : Mirror f i g.cache g'.cache)
    (hr : r.issuer? rules = some i) :
    Mirror f i (g.start rules now unix r).1.cache (g'.start rules now unix' (r.renumber f)).1.cache ∧
      (g'.start rules now unix' (r.renumber f)).2 = (g.start rules now unix r).2.renumber f := by
  cases r with
  | get url =>
      obtain ⟨j, hj, hi⟩ := Option.map_eq_some_iff.mp hr
      exact ofLookup_mirror (h.get rules.cache now hj hi) _
  | refresh seen => exact ofLookup_mirror (h.refresh rules.cache now (Option.some.inj hr)) _
  | forget url =>
      obtain ⟨hm, hhad⟩ := h.evict rules.trust (Option.some.inj hr)
      exact ⟨hm, congrArg (fun had => Call.ended (.evicted had)) hhad⟩
  | sweep | verify | authenticate | evict => cases hr

theorem sameFor_start (hc : r.OfCache) (hr : r.issuer? rules ≠ some i) :
    SameFor i g.cache (g.start rules now unix r).1.cache := by
  cases r with
  | get url =>
      rw [start, ofLookup_cache]
      apply sameFor_get
      intro k hk he
      apply hr
      rw [Request.issuer?, show rules.trust.resolve? url = some k from hk, Option.map_some, he]
  | refresh seen =>
      rw [start, ofLookup_cache]
      exact sameFor_refresh _ _ fun he => hr (congrArg some he)
  | forget url => exact sameFor_evict fun he => hr (congrArg some he)
  | sweep | verify | authenticate | evict => cases hc

theorem proceed_mirror (rules : GateRules) (now : Millis) (unix unix' : Int) (h : Mirror f i g.cache g'.cache)
    (hp : p.OfCache) (hi : p.ticket.issuer = i) (o : Outcome) :
    Mirror f i (g.proceed rules now unix o p).1.cache
        (g'.proceed rules now unix' (o.map (·.renumber f)) p).1.cache ∧
      (g'.proceed rules now unix' (o.map (·.renumber f)) p).2 = (g.proceed rules now unix o p).2.renumber f := by
  cases p with
  | get t =>
      obtain rfl := hi
      obtain ⟨hm, ha⟩ := h.finishGet now o
      exact ⟨hm, congrArg (fun a => Call.ended (.record a)) ha⟩
  | refresh t => exact ⟨h, by cases o <;> rfl⟩
  | sweep | attempt => cases hp

theorem sameFor_proceed (hp : p.OfCache) (o : Outcome) :
    SameFor i g.cache (g.proceed rules now unix o p).1.cache := by
  cases p with
  | get t => exact sameFor_finishGet i _ o _
  | refresh t => exact .refl i _
  | sweep | attempt => cases hp

theorem ofLookup_waiting {x : Cache × Reply (Except AuthFault Record)} {k : Ticket → Pending}
    (h : (g.ofLookup x k).2 = .waiting p) : ∃ t, x.2 = .wait t ∧ p = k t := by
  obtain ⟨c, a⟩ := x
  cases a with
  | done a => cases h
  | wait t => exact ⟨t, rfl, (Call.waiting.inj h).symm⟩

theorem start_waiting (hc : r.OfCache) (h : (g.start rules now unix r).2 = .waiting p) :
    p.OfCache ∧ r.issuer? rules = some p.ticket.issuer := by
  have hholds : g.cache.Holds fun _ _ => True :=
    ⟨fun _ _ _ => trivial, fun _ _ _ => trivial, fun _ _ => trivial⟩
  cases r with
  | get url =>
      obtain ⟨t, ht, rfl⟩ := ofLookup_waiting h
      cases hj : rules.trust.resolve? url with
      | none =>
          rw [get_untrusted rules.cache hj] at ht
          cases ht
      | some j =>
          have hi := hholds.get rules.cache now hj
          rw [ht] at hi
          rw [Request.issuer?, hj]
          exact ⟨trivial, congrArg some (show t.issuer = j.url from hi).symm⟩
  | refresh seen =>
      obtain ⟨t, ht, rfl⟩ := ofLookup_waiting h
      have hi := hholds.refresh rules.cache now seen
      rw [ht] at hi
      exact ⟨trivial, congrArg some (show t.issuer = seen.issuer from hi).symm⟩
  | forget url => cases h
  | sweep | verify | authenticate | evict => cases hc

theorem proceed_ended (hp : p.OfCache) (o : Outcome) : ∃ x, (g.proceed rules now unix o p).2 = .ended x := by
  cases p with
  | get t | refresh t => exact proceed_last rfl rules now unix o g
  | sweep | attempt => cases hp

end Gate

namespace Run

variable {rules : GateRules} {f : Nat → Nat} {p : Nat → Prop} [DecidablePred p] {i : Text} {s s' : Run}
  {id : Nat}

/-- What is left of an action when only the issuer matters, whose calls have the picked numbers. -/
def keep? (rules : GateRules) (f : Nat → Nat) (p : Nat → Prop) [DecidablePred p] (i : Text) :
    Action → Option Action
  | .pass d => some (.pass d)
  | .call r => if r.issuer? rules = some i then some (.call (r.renumber f)) else none
  | .land t result => if t.issuer = i then some (.land t result) else none
  | .resume id => if p id then some (.resume (Nat.count p id)) else none

/-- The second run is, as far as the issuer and the picked calls go, where the first one is. -/
structure Mirrored (f : Nat → Nat) (p : Nat → Prop) [DecidablePred p] (i : Text) (s s' : Run) : Prop where
  now : s'.now = s.now
  cache : Mirror f i s.gate.cache s'.gate.cache
  calls : Picked p (Call.renumber f) s.calls s'.calls

theorem Mirrored.pending? (h : Mirrored f p i s s') (hp : p id) :
    s'.pending? (Nat.count p id) = s.pending? id := by
  rw [Run.pending?, h.calls.get id hp, Run.pending?]
  cases hk : s.calls[id]? with
  | none => rfl
  | some k => cases k <;> rfl

theorem Mirrored.result? (h : Mirrored f p i s s') (hp : p id) :
    s'.result? (Nat.count p id) = (s.result? id).map (·.renumber f) := by
  rw [Run.result?, h.calls.get id hp, Run.result?]
  cases hk : s.calls[id]? with
  | none => rfl
  | some k => cases k <;> rfl

theorem Mirrored.inFlight (h : Mirrored f p i s s') {t : Ticket} (ht : t.issuer = i) :
    s'.InFlight t ↔ s.InFlight t :=
  h.cache.mem_flights ht

theorem Mirrored.call (h : Mirrored f p i s s') {r : Request} (hc : r.OfCache)
    (hp : p s.calls.length ↔ r.issuer? rules = some i) :
    Mirrored f p i (s.step rules (.call r)) (after rules s' (keep? rules f p i (.call r)).toList) := by
  by_cases hr : r.issuer? rules = some i
  · rw [keep?, if_pos hr]
    obtain ⟨epoch', now', g', calls'⟩ := s'
    obtain rfl := h.now
    obtain ⟨hm, hk⟩ :=
      Gate.start_mirror s.now s.unix (Run.unix ⟨epoch', s.now, g', calls'⟩) h.cache hr
    refine ⟨rfl, hm, ?_⟩
    have hcalls := h.calls.append_of_pos (hp.mpr hr) (s.gate.start rules s.now s.unix r).2
    rwa [← hk] at hcalls
  · rw [keep?, if_neg hr]
    refine ⟨h.now, ?_, h.calls.append_of_neg (fun hn => hr (hp.mp hn)) _⟩
    exact h.cache.frame (Gate.sameFor_start hc hr) (congrArg f (Gate.start_changes r s.gate).generation)

theorem Mirrored.land (h : Mirrored f p i s s') (hmono : Monotone f) {t : Ticket}
    {result : Except FetchFault Document}
    (hf : ∀ j ∈ drawnBy s (.land t result),
      f (s.gate.cache.generation + 1) = f s.gate.cache.generation + if j = i then 1 else 0) :
    Mirrored f p i (s.step rules (.land t result))
      (after rules s' (keep? rules f p i (.land t result)).toList) := by
  by_cases ht : s.InFlight t
  · have hdrawn : f (s.gate.cache.generation + drawn result) =
        f s.gate.cache.generation + if t.issuer = i then drawn result else 0 := by
      cases result with
      | error e => simp [drawn]
      | ok d => exact hf t.issuer (by simp [drawnBy, ht])
    rw [step_land ht]
    by_cases hi : t.issuer = i
    · rw [if_pos hi] at hdrawn
      rw [keep?, if_pos hi, Option.toList_some, after_cons, step_land ((h.inFlight hi).mpr ht), h.now]
      exact ⟨rfl, h.cache.land hmono hi hdrawn rules.policy s.now, h.calls⟩
    · rw [if_neg hi] at hdrawn
      rw [keep?, if_neg hi]
      exact ⟨h.now, h.cache.frame (sameFor_land hi rules.policy result) hdrawn, h.calls⟩
  · rw [step_land_of_not ht]
    by_cases hi : t.issuer = i
    · rw [keep?, if_pos hi, Option.toList_some, after_cons, step_land_of_not (mt (h.inFlight hi).mp ht)]
      exact h
    · rw [keep?, if_neg hi]
      exact h

theorem Mirrored.resume (h : Mirrored f p i s s')
    (hw : ∀ q, s.pending? id = some q → q.OfCache ∧ (p id ↔ q.ticket.issuer = i)) :
    Mirrored f p i (s.step rules (.resume id)) (after rules s' (keep? rules f p i (.resume id)).toList) := by
  by_cases hp : p id
  · rw [keep?, if_pos hp, Option.toList_some, after_cons]
    -- The outcome that the call needs to go on is there in both runs or in neither.
    by_cases hnone : ∀ q, s.pending? id = some q → s.gate.cache.outcome? q.ticket = none
    · rw [step_resume_of_none hnone, step_resume_of_none]
      · exact h
      · intro q hq
        rw [h.pending? hp] at hq
        rw [h.cache.outcome? _ ((hw q hq).2.mp hp), hnone q hq, Option.map_none]
    · push Not at hnone
      obtain ⟨q, hq, ho⟩ := hnone
      obtain ⟨o, ho⟩ := Option.ne_none_iff_exists'.mp ho
      obtain ⟨hc, hi⟩ := hw q hq
      have hq' : s'.pending? (Nat.count p id) = some q := (h.pending? hp).trans hq
      have ho' : s'.gate.cache.outcome? q.ticket = some (o.map (·.renumber f)) := by
        rw [h.cache.outcome? _ (hi.mp hp), ho, Option.map_some]
      rw [step_resume hq ho, step_resume hq' ho', h.now]
      obtain ⟨hm, hk⟩ :=
        Gate.proceed_mirror rules s.now s.unix s'.unix h.cache hc (hi.mp hp) o
      refine ⟨rfl, hm, ?_⟩
      have hcalls := h.calls.set_of_pos hp (s.gate.proceed rules s.now s.unix o q).2
      rwa [← hk] at hcalls
  · rw [keep?, if_neg hp]
    rcases resume_cases rules s id with ⟨q, o, hq, ho⟩ | he
    · rw [step_resume hq ho]
      exact ⟨h.now, h.cache.frame (Gate.sameFor_proceed (hw q hq).1 o)
        (congrArg f (Gate.proceed_asks o q s.gate).generation), h.calls.set_of_neg hp _⟩
    · rw [he]
      exact h

theorem Mirrored.step (h : Mirrored f p i s s') (hmono : Monotone f) {a : Action}
    (hcall : ∀ r, a = .call r → r.OfCache ∧ (p s.calls.length ↔ r.issuer? rules = some i))
    (hwait : ∀ id q, s.pending? id = some q → q.OfCache ∧ (p id ↔ q.ticket.issuer = i))
    (hf : ∀ j ∈ drawnBy s a,
      f (s.gate.cache.generation + 1) = f s.gate.cache.generation + if j = i then 1 else 0) :
    Mirrored f p i (s.step rules a) (after rules s' (keep? rules f p i a).toList) := by
  cases a with
  | pass d => exact ⟨congrArg (· + d) h.now, h.cache, h.calls⟩
  | call r => exact h.call (hcall r rfl).1 (hcall r rfl).2
  | land t result => exact h.land hmono hf
  | resume id => exact h.resume (hwait id)

end Run

end BearerGate
