import BearerGate.Proofs.Gate.Decided
import BearerGate.Proofs.Run.Calls

namespace BearerGate

open Cache

/-- An engine that a claimed issuer may be given: some spelling names it, and the claimed one names an
issuer of the same URL. -/
def GateRules.Binds (rules : GateRules) (claimed : Text) (e : TrustedIssuer) : Prop :=
  ∃ i claimed', rules.trust.resolve? claimed = some i ∧ rules.trust.resolve? claimed' = some e ∧ e.url = i.url

namespace Gate

variable {rules : GateRules} {Q : Text → Outcome → Prop} {now : Millis} {unix : Int} {g : Gate}

/-- Every engine is kept under its own URL and was built for a claimed issuer. -/
def EnginesBound (rules : GateRules) (g : Gate) : Prop :=
  ∀ x ∈ g.engines, x.2.url = x.1 ∧ ∃ claimed, rules.trust.resolve? claimed = some x.2

theorem EnginesBound.engine (h : g.EnginesBound rules) (claimed : Text) :
    (g.engine rules claimed).1.EnginesBound rules := by
  rw [Gate.engine]
  split
  · exact h
  · rename_i i hi
    split
    · exact h
    · intro x hx
      rcases List.mem_append.mp hx with hx | hx
      · exact h x hx
      · obtain rfl := List.mem_singleton.mp hx
        exact ⟨rfl, claimed, hi⟩

theorem EnginesBound.binds (h : g.EnginesBound rules) {claimed : Text} {e : TrustedIssuer}
    (he : (g.engine rules claimed).2 = some e) : rules.Binds claimed e := by
  rw [Gate.engine] at he
  split at he
  · cases he
  · rename_i i hi
    split at he
    · rename_i e' hl
      obtain rfl := Option.some.inj he
      obtain ⟨hurl, claimed', hc⟩ := h _ (Assoc.mem_of_lookup hl)
      exact ⟨i, claimed', hi, hc, hurl⟩
    · obtain rfl := Option.some.inj he
      exact ⟨i, claimed, hi, hi, rfl⟩

theorem EnginesBound.congr (h : g.EnginesBound rules) {g' : Gate} (he : g'.engines = g.engines) :
    g'.EnginesBound rules := by
  intro x hx
  rw [he] at hx
  exact h x hx

theorem verify_engines_of_parse {raw : Text} {t : Unverified} (hp : Unverified.parse raw = .ok t)
    (rules : GateRules) (now : Millis) (unix : Int) (g : Gate) :
    (g.verify rules now unix raw).1.engines = (g.engine rules t.issuer).1.engines := by
  simp only [verify, hp]
  split
  · rename_i he
    rw [he]
  · rename_i he
    rw [he]
    split
    · rfl
    · rfl

theorem verify_engines (rules : GateRules) (now : Millis) (unix : Int) (raw : Text) (g : Gate) :
    (g.verify rules now unix raw).1.engines = g.engines ∨
      ∃ claimed, (g.verify rules now unix raw).1.engines = (g.engine rules claimed).1.engines := by
  cases hp : Unverified.parse raw with
  | error f =>
      refine .inl ?_
      simp only [verify, hp]
  | ok t => exact .inr ⟨t.issuer, verify_engines_of_parse hp rules now unix g⟩

theorem ofProgress_engines (counted : Bool) (x : Gate × Progress) :
    (ofProgress counted x).1.engines = x.1.engines := by
  obtain ⟨g, p⟩ := x
  cases p with
  | wait a => rfl
  | done v => cases counted <;> rfl

theorem ofLookup_engines (g : Gate) (x : Cache × Reply (Except AuthFault Record)) (f : Ticket → Pending) :
    (g.ofLookup x f).1.engines = g.engines := by
  obtain ⟨c, r⟩ := x
  cases r <;> rfl

theorem ofSweep_engines (g : Gate) (x : Cache × Sweep) : (g.ofSweep x).1.engines = g.engines := by
  obtain ⟨c, w⟩ := x
  cases w <;> rfl

theorem EnginesBound.start (h : g.EnginesBound rules) (r : Request) :
    (g.start rules now unix r).1.EnginesBound rules := by
  cases r with
  | get url => exact h.congr (ofLookup_engines _ _ _)
  | refresh seen => exact h.congr (ofLookup_engines _ _ _)
  | sweep horizon order => exact h.congr (ofSweep_engines _ _)
  | verify token | authenticate token =>
      rcases verify_engines rules now unix token g with he | ⟨claimed, he⟩
      · exact h.congr ((ofProgress_engines _ _).trans he)
      · exact (h.engine claimed).congr ((ofProgress_engines _ _).trans he)
  | evict url => exact fun x hx => h x (List.mem_of_mem_filter hx)
  | forget url => exact h.congr rfl

theorem proceed_engines (rules : GateRules) (now : Millis) (unix : Int) (o : Outcome) (g : Gate)
    (p : Pending) : (g.proceed rules now unix o p).1.engines = g.engines := by
  cases p with
  | get t => rfl
  | refresh t => rfl
  | sweep t rest n => exact ofSweep_engines _ _
  | attempt a counted =>
      refine (ofProgress_engines _ _).trans ?_
      rw [resume]
      split
      · rfl
      · rfl

def CallSound (rules : GateRules) (Q : Text → Outcome → Prop) (unix : Int) (token? : Option Text) :
    Call → Prop
  | .waiting (.attempt a _) => ∃ raw, token? = some raw ∧ a.Asking rules Q rules.Binds raw
  | .ended (.verdict v) => ∃ raw, token? = some raw ∧ Decided rules Q rules.Binds unix raw v
  | _ => True

theorem CallSound.at_time {token? : Option Text} {p : Pending}
    (h : CallSound rules Q unix token? (.waiting p)) (unix' : Int) :
    CallSound rules Q unix' token? (.waiting p) := by
  cases p with
  | attempt | get | refresh | sweep => exact h

theorem ofProgress_sound {raw : Text} {x : Gate × Progress}
    (h : x.2.Sound rules Q rules.Binds unix raw) (counted : Bool) :
    CallSound rules Q unix (some raw) (ofProgress counted x).2 := by
  obtain ⟨g, p⟩ := x
  cases p with
  | wait a => exact ⟨raw, rfl, h⟩
  | done v => exact ⟨raw, rfl, h⟩

theorem ofLookup_sound (token? : Option Text) (x : Cache × Reply (Except AuthFault Record))
    {f : Ticket → Pending} (hf : ∀ t a counted, f t ≠ .attempt a counted) :
    CallSound rules Q unix token? (g.ofLookup x f).2 := by
  obtain ⟨c, r⟩ := x
  cases r with
  | done a => trivial
  | wait t =>
      cases he : f t with
      | attempt a counted => exact absurd he (hf t a counted)
      | get | refresh | sweep => simp only [ofLookup, he, CallSound]

theorem ofSweep_sound (token? : Option Text) (x : Cache × Sweep) :
    CallSound rules Q unix token? (g.ofSweep x).2 := by
  obtain ⟨c, w⟩ := x
  cases w with
  | done n => trivial
  | wait t rest n => trivial

theorem start_sound (hc : g.cache.Holds Q) (he : g.EnginesBound rules) (r : Request) :
    CallSound rules Q unix r.token? (g.start rules now unix r).2 := by
  cases r with
  | get url => exact ofLookup_sound _ _ fun _ _ _ h => nomatch h
  | refresh seen => exact ofLookup_sound _ _ fun _ _ _ h => nomatch h
  | sweep horizon order => exact ofSweep_sound _ _
  | verify raw | authenticate raw => exact ofProgress_sound (verify_sound hc fun _ _ h => he.binds h) _
  | evict url => trivial
  | forget url => trivial

theorem proceed_sound (hc : g.cache.Holds Q) {token? : Option Text} {p : Pending} {o : Outcome}
    (hp : CallSound rules Q unix token? (.waiting p)) (ho : Q p.ticket.issuer o) :
    CallSound rules Q unix token? (g.proceed rules now unix o p).2 := by
  cases p with
  | get t => trivial
  | refresh t => trivial
  | sweep t rest n => exact ofSweep_sound _ _
  | attempt a counted =>
      obtain ⟨raw, rfl, ha⟩ := hp
      exact ofProgress_sound (resume_sound hc ha ho) counted

end Gate

namespace Run

variable {rules : GateRules} {Q Q' : Text → Outcome → Prop} {s : Run} {requests : List Request}

/-- The cache, the engines and the waiting attempts are what they should be when `Q` says which outcomes
the fetches of an issuer may have. -/
structure Sound (rules : GateRules) (Q : Text → Outcome → Prop) (s : Run) (requests : List Request) :
    Prop where
  cache : s.gate.cache.Holds Q
  engines : s.gate.EnginesBound rules
  length : s.calls.length = requests.length
  waiting : ∀ id p, s.pending? id = some p →
    Gate.CallSound rules Q s.unix ((requests[id]?).bind Request.token?) (.waiting p)

theorem Sound.mono (h : s.Sound rules Q requests) (hQ : ∀ i o, Q i o → Q' i o) :
    s.Sound rules Q' requests where
  cache := h.cache.mono hQ
  engines := h.engines
  length := h.length
  waiting id p hp := by
    have hw := h.waiting id p hp
    cases p with
    | attempt a counted =>
        obtain ⟨raw, hr, ha⟩ := hw
        exact ⟨raw, hr, ha.mono hQ⟩
    | get | refresh | sweep => trivial

theorem Sound.call (h : s.Sound rules Q requests) {a : Action} {id : Nat} {k : Call}
    (hk : (s.step rules a).calls[id]? = some k) :
    s.calls[id]? = some k ∨
      Gate.CallSound rules Q s.unix (((requests ++ a.request?.toList)[id]?).bind Request.token?) k := by
  rcases calls_step_cases hk with hold | ⟨r, rfl, rfl, rfl⟩ | ⟨p, o, rfl, hp, ho, rfl⟩
  · exact .inl hold
  · refine .inr ?_
    have hr : (requests ++ (Action.call r).request?.toList)[s.calls.length]? = some r := by
      simp [h.length, Action.request?]
    rw [hr]
    exact Gate.start_sound h.cache h.engines r
  · refine .inr ?_
    simp only [Action.request?, Option.toList_none, List.append_nil]
    exact Gate.proceed_sound h.cache (h.waiting id p hp) (h.cache.outcome? ho)

theorem engines_step {a : Action} (ha : a.request? = none) :
    (s.step rules a).gate.engines = s.gate.engines := by
  cases a with
  | pass d => rfl
  | call r => cases ha
  | land t result =>
      by_cases ht : s.InFlight t
      · rw [step_land ht]
      · rw [step_land_of_not ht]
  | resume id =>
      rcases resume_cases rules s id with ⟨p, o, hp, ho⟩ | he
      · rw [step_resume hp ho]
        exact Gate.proceed_engines _ _ _ _ _ _
      · rw [he]

theorem Sound.engines_step (h : s.Sound rules Q requests) (a : Action) :
    (s.step rules a).gate.EnginesBound rules := by
  cases a with
  | call r => exact h.engines.start r
  | pass d => exact h.engines.congr (Run.engines_step rfl)
  | land t result => exact h.engines.congr (Run.engines_step rfl)
  | resume id => exact h.engines.congr (Run.engines_step rfl)

theorem Sound.step (h : s.Sound rules Q requests) (a : Action)
    (hland : ∀ t result, a = .land t result → s.InFlight t →
      Q t.issuer (outcome rules.policy s.now t.issuer s.gate.cache.generation result)) :
    (s.step rules a).Sound rules Q (requests ++ a.request?.toList) where
  cache := by
    rcases step_cache rules s a with ⟨t, result, rfl, ht, he⟩ | hc
    · rw [he]
      exact h.cache.land (hland t result rfl ht)
    · exact h.cache.changes hc
  engines := h.engines_step a
  length := by rw [length_calls_step, h.length, List.length_append]
  waiting id p hp := by
    rcases h.call (pending?_eq_some_iff.mp hp) with hold | hnew
    · have hwait := h.waiting id p (pending?_eq_some_iff.mpr hold)
      have hid : id < requests.length := h.length ▸ (List.getElem?_eq_some_iff.mp hold).1
      rw [List.getElem?_append_left hid]
      exact hwait.at_time _
    · exact hnew.at_time _

/-- An outcome with which a fetch of the issuer has landed. -/
def Landed (rules : GateRules) (s : Run) (l : List Action) (i : Text) (o : Outcome) : Prop :=
  ∃ t, t.issuer = i ∧ Lands rules s l t o

/-- Whatever happens, all that is known of an issuer are outcomes of its own fetches. -/
theorem sound_after (rules : GateRules) (epoch : Int) (l : List Action) :
    (after rules { epoch := epoch } l).Sound rules (Landed rules { epoch := epoch } l) (Run.requests l) := by
  induction l using List.reverseRecOn with
  | nil => exact ⟨.empty, fun x hx => (nomatch hx), rfl, fun id p hp => (nomatch hp)⟩
  | append_singleton l a ih =>
      rw [after_concat, requests_concat]
      have hmono : ∀ i o, Landed rules { epoch := epoch } l i o →
          Landed rules { epoch := epoch } (l ++ [a]) i o := by
        rintro i o ⟨t, ht, hl⟩
        exact ⟨t, ht, hl.append [a]⟩
      refine (ih.mono hmono).step a fun t result ha hf => ?_
      subst ha
      exact ⟨t, rfl, l, result, [], rfl, hf, rfl⟩

theorem Sound.decided (h : s.Sound rules Q requests) {a : Action} {id : Nat} {raw : Text} {v : Verdict}
    (hreq : ((requests ++ a.request?.toList)[id]?).bind Request.token? = some raw)
    (hnone : s.result? id = none) (hv : (s.step rules a).result? id = some (.verdict v)) :
    Gate.Decided rules Q rules.Binds s.unix raw v := by
  rcases h.call (result?_eq_some_iff.mp hv) with hold | hnew
  · rw [result?_eq_some_iff.mpr hold] at hnone
    cases hnone
  · obtain ⟨raw', hraw, hd⟩ := hnew
    rw [hreq] at hraw
    obtain rfl := Option.some.inj hraw
    exact hd

theorem decided_after {epoch : Int} {l : List Action} {id : Nat} {raw : Text} {v : Verdict}
    (hreq : ((Run.requests l)[id]?).bind Request.token? = some raw)
    (hv : (after rules { epoch := epoch } l).result? id = some (.verdict v)) :
    ∃ l₁ a l₂, l = l₁ ++ a :: l₂ ∧ (after rules { epoch := epoch } l₁).result? id = none ∧
      (after rules { epoch := epoch } (l₁ ++ [a])).result? id = some (.verdict v) ∧
        Gate.Decided rules (Landed rules { epoch := epoch } l₁) rules.Binds
          (after rules { epoch := epoch } l₁).unix raw v := by
  obtain ⟨l₁, a, l₂, rfl, hnone, hstep⟩ := result?_ended hv rfl
  refine ⟨l₁, a, l₂, rfl, hnone, by rw [after_concat, hstep], ?_⟩
  have hreq' : ((Run.requests l₁ ++ a.request?.toList)[id]?).bind Request.token? = some raw := by
    have hid : id < (Run.requests (l₁ ++ [a])).length := by
      rw [← length_calls rules epoch, after_concat]
      exact (List.getElem?_eq_some_iff.mp (result?_eq_some_iff.mp hstep)).1
    have hsplit : Run.requests (l₁ ++ a :: l₂) = Run.requests (l₁ ++ [a]) ++ Run.requests l₂ := by
      rw [List.append_cons, Run.requests, List.filterMap_append]
      rfl
    rw [hsplit, List.getElem?_append_left hid, requests_concat] at hreq
    exact hreq
  exact (sound_after rules epoch l₁).decided hreq' hnone hstep

end Run

end BearerGate
