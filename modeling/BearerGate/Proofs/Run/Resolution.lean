import BearerGate.Proofs.Run.OwnStarts

namespace BearerGate

open Cache

namespace Gate

variable {rules : GateRules} {now : Millis} {unix : Int} {t : Unverified} {i : TrustedIssuer} {r : Record}

/-- What the search for a key comes to when a record is at hand and a forced refresh gives the answer: a key, with
the record that it is in. -/
def resolution (t : Unverified) (r : Record) (a : Except AuthFault Record) : Option (Record × SigningKey) :=
  match r.selectKey t with
  | .ok k => some (r, k)
  | .error .refused => none
  | .error .absent => a.toOption.bind fun r => (r.selectKey t).toOption.map (r, ·)

def settle (rules : GateRules) (unix : Int) (t : Unverified) (i : TrustedIssuer) :
    Option (Record × SigningKey) → Verdict
  | some (r, k) => conclude rules unix t i r k
  | none => .error ⟨.issuerResolved, keyNotFound t⟩

theorem afterRefresh_eq (h : r.selectKey t = .error .absent) (a : Except AuthFault Record) :
    afterRefresh rules unix t i a = .done (settle rules unix t i (resolution t r a)) := by
  rw [resolution, h]
  cases a with
  | error f => rfl
  | ok r' =>
      rw [afterRefresh]
      cases hk : r'.selectKey t with
      | ok k => simp [Except.toOption, hk, settle]
      | error m => simp [Except.toOption, hk, settle, reject]

theorem afterLookup_spared (h : r.selectKey t ≠ .error .absent) (a : Except AuthFault Record) (c : Cache) :
    afterLookup rules now unix t i (.ok r) c = (c, .done (settle rules unix t i (resolution t r a))) := by
  cases hk : r.selectKey t with
  | ok k => simp only [afterLookup, resolution, hk, settle]
  | error m =>
      cases m with
      | refused => simp only [afterLookup, resolution, hk, settle, reject]
      | absent => exact absurd hk h

theorem conclude_ok_of {k : SigningKey} {claims : Claims} {v : Validated} (hk : t.verify k = .ok claims)
    (hv : Validation.check i rules.validation r.issuer rules.service claims unix = .ok v) :
    conclude rules unix t i r k = .ok (Principal.make v i rules.service) := by
  simp only [conclude, hk, hv]

variable {g : Gate}

theorem engine_attempts_congr (rules : GateRules) (claimed : Text) (g : Gate) (x : Attempts) :
    engine rules claimed { g with attempts := x } =
      ({ (g.engine rules claimed).1 with attempts := x }, (g.engine rules claimed).2) := by
  simp only [engine]
  split
  · rfl
  · split <;> rfl

theorem verify_attempts_congr (rules : GateRules) (now : Millis) (unix : Int) (raw : Text) (g : Gate)
    (x : Attempts) :
    verify rules now unix raw { g with attempts := x } =
      ({ (g.verify rules now unix raw).1 with attempts := x }, (g.verify rules now unix raw).2) := by
  simp only [verify, engine_attempts_congr]
  split
  · rfl
  · rename_i t _
    generalize g.engine rules t.issuer = y
    obtain ⟨g', _ | e⟩ := y
    · rfl
    · dsimp only
      generalize g'.cache.get rules.cache now e.url = z
      obtain ⟨c, a | u⟩ := z <;> rfl

theorem ofProgress_attempts_congr (counted : Bool) (g : Gate) (p : Progress) (x : Attempts) :
    ∃ y, ofProgress counted ({ g with attempts := x }, p) =
      ({ (ofProgress counted (g, p)).1 with attempts := y }, (ofProgress counted (g, p)).2) := by
  cases p with
  | wait a => exact ⟨x, rfl⟩
  | done v => cases counted <;> exact ⟨_, rfl⟩

theorem start_attempts_congr (rules : GateRules) (now : Millis) (unix : Int) (r : Request) (g : Gate)
    (x : Attempts) :
    ∃ y, start rules now unix { g with attempts := x } r =
      ({ (g.start rules now unix r).1 with attempts := y }, (g.start rules now unix r).2) := by
  cases r with
  | get url =>
      simp only [start]
      generalize g.cache.get rules.cache now url = z
      obtain ⟨c, a | u⟩ := z <;> exact ⟨x, rfl⟩
  | refresh seen =>
      simp only [start]
      generalize g.cache.refresh rules.cache now seen = z
      obtain ⟨c, a | u⟩ := z <;> exact ⟨x, rfl⟩
  | sweep horizon order =>
      simp only [start]
      generalize g.cache.sweep rules.cache now _ 0 = z
      obtain ⟨c, n | ⟨u, rest, n⟩⟩ := z <;> exact ⟨x, rfl⟩
  | verify token | authenticate token =>
      simp only [start, verify_attempts_congr]
      exact ofProgress_attempts_congr _ _ _ x
  | evict url | forget url => exact ⟨x, rfl⟩

theorem proceed_attempts_congr (rules : GateRules) (now : Millis) (unix : Int) (o : Outcome) (p : Pending)
    (g : Gate) (x : Attempts) :
    ∃ y, proceed rules now unix o { g with attempts := x } p =
      ({ (g.proceed rules now unix o p).1 with attempts := y }, (g.proceed rules now unix o p).2) := by
  cases p with
  | get t | refresh t => exact ⟨x, rfl⟩
  | sweep t rest n =>
      simp only [proceed]
      generalize g.cache.resumeSweep rules.cache now o rest n = z
      obtain ⟨c, n | ⟨u, rest, n⟩⟩ := z <;> exact ⟨x, rfl⟩
  | attempt a counted =>
      have h : resume rules now unix a o { g with attempts := x } =
          ({ (g.resume rules now unix a o).1 with attempts := x }, (g.resume rules now unix a o).2) := by
        simp only [resume]
        split <;> rfl
      simp only [proceed, h]
      exact ofProgress_attempts_congr _ _ _ x

theorem verify_answered {raw : Text} {x : Lookup} (h : g.answered? rules now (.verify raw) = some x) (unix : Int) :
    ∃ t e, ∃ g' : Gate, x.token = some t ∧ Asks rules.policy now g.cache g'.cache ∧
      g.verify rules now unix raw =
        ({ g' with cache := (afterLookup rules now unix t e (.ok x.record) g'.cache).1 },
          (afterLookup rules now unix t e (.ok x.record) g'.cache).2) := by
  rw [answered?, asks?] at h
  obtain ⟨⟨url, token⟩, hasks, h⟩ := Option.bind_eq_some_iff.mp h
  obtain ⟨t, ht, hasks⟩ := Option.bind_eq_some_iff.mp hasks
  obtain ⟨e, he, hasks⟩ := Option.map_eq_some_iff.mp hasks
  obtain ⟨record, hrecord, rfl⟩ := Option.map_eq_some_iff.mp h
  cases hasks
  cases hp : Unverified.parse raw with
  | error f =>
      rw [hp] at ht
      cases ht
  | ok t' =>
      rw [hp] at ht
      obtain rfl := Option.some.inj ht
      have hcache := engine_cache rules t'.issuer g
      simp only [verify, hp]
      generalize g.engine rules t'.issuer = y at he hcache ⊢
      obtain ⟨g', _ | e'⟩ := y
      · cases he
      · obtain rfl := Option.some.inj he
        have hcache : g'.cache = g.cache := hcache
        have hasks := get_asks rules.cache now e'.url g.cache
        rw [← hcache] at hrecord hasks
        dsimp only
        generalize g'.cache.get rules.cache now e'.url = z at hrecord hasks
        obtain ⟨c, a | u⟩ := z
        · cases a with
          | error f => cases hrecord
          | ok r =>
              obtain rfl := Option.some.inj hrecord
              exact ⟨t', e', { g' with cache := c }, rfl, hcache ▸ hasks, rfl⟩
        · cases hrecord

end Gate

namespace Run

variable {rules : GateRules} {s s' : Run} {l : List Action} {id : Nat} {counted : Bool} {t : Unverified}
  {i : TrustedIssuer} {r : Record}

def enter (s : Run) (id : Nat) (x : Gate × Call) : Run :=
  { s with gate := x.1, calls := s.calls.take id ++ x.2 :: s.calls.drop (id + 1) }

/-- The call has a record at hand and looks for the key of the token. -/
def search (rules : GateRules) (s : Run) (id : Nat) (counted : Bool) (t : Unverified) (i : TrustedIssuer)
    (r : Record) : Run :=
  let x := Gate.afterLookup rules s.now s.unix t i (.ok r) s.gate.cache
  s.enter id (Gate.ofProgress counted ({ s.gate with cache := x.1 }, x.2))

/-- The call makes a forced refresh instead, which is counted as one for a key. -/
def force (rules : GateRules) (s : Run) (id : Nat) (r : Record) : Run :=
  s.enter id
    (Gate.start rules s.now s.unix { s.gate with cache.tally := s.gate.cache.tally.keyRefresh } (.refresh r))

def EndsBy (rules : GateRules) (s : Run) (id : Nat) (l : List Action) (x : Result) : Prop :=
  (after rules s l).result? id = some x ∧ ∀ l' a, l = l' ++ [a] → (after rules s l').result? id = none

inductive Follows (counted : Bool) (t : Unverified) (i : TrustedIssuer) : Call → Call → Prop
  | waiting (u : Ticket) :
      Follows counted t i (.waiting (.refresh u)) (.waiting (.attempt ⟨t, i, .refresh, u⟩ counted))
  | ended (a : Except AuthFault Record) (v : Verdict) :
      Follows counted t i (.ended (.record a)) (.ended (.verdict v))

/-- The second run is the first but for one call, which follows the refresh, and for the attempts counted. -/
inductive Parallel (id : Nat) (counted : Bool) (t : Unverified) (i : TrustedIssuer) (s : Run) : Run → Prop
  | mk (x : Attempts) (k k' : Call) (hk : s.calls[id]? = some k) (h : Follows counted t i k k') :
      Parallel id counted t i s { s with gate.attempts := x, calls := s.calls.set id k' }

theorem Parallel.of_eq {x : Attempts} {k k' : Call} (hk : s.calls[id]? = some k) (h : Follows counted t i k k')
    (he : s' = { s with gate.attempts := x, calls := s.calls.set id k' }) : Parallel id counted t i s s' := by
  subst he
  exact .mk x k k' hk h

theorem Parallel.resume (x : Attempts) {k k' : Call} (hk : s.calls[id]? = some k)
    (h : Follows counted t i k k') :
    Parallel id counted t i (s.step rules (.resume id))
      (({ s with gate.attempts := x, calls := s.calls.set id k' } : Run).step rules (.resume id)) := by
  have hid : id < s.calls.length := (List.getElem?_eq_some_iff.mp hk).1
  have hk' : ({ s with gate.attempts := x, calls := s.calls.set id k' } : Run).calls[id]? = some k' :=
    List.getElem?_set_self hid
  cases h with
  | ended a v =>
      rw [step_resume_ended (result?_eq_some_iff.mpr hk), step_resume_ended (result?_eq_some_iff.mpr hk')]
      exact .mk x _ _ hk (.ended a v)
  | waiting u =>
      have hp := pending?_eq_some_iff.mpr hk
      have hp' := pending?_eq_some_iff.mpr hk'
      cases ho : s.gate.cache.outcome? u with
      | none =>
          rw [step_resume_waiting hp ho, step_resume_waiting hp' ho]
          exact .mk x _ _ hk (.waiting u)
      | some o =>
          obtain ⟨v, hv⟩ := Gate.afterRefresh_done rules s.unix t i (finishRefresh o)
          rw [step_resume hp ho, step_resume hp' ho]
          apply Parallel.of_eq (x := if counted then x.count v else x) (List.getElem?_set_self hid)
            (.ended (finishRefresh o) v)
          have hproceed : Gate.proceed rules s.now s.unix o { s.gate with attempts := x }
              (.attempt ⟨t, i, .refresh, u⟩ counted) =
                ({ s.gate with attempts := if counted then x.count v else x }, .ended (.verdict v)) := by
            simp only [Gate.proceed, Gate.resume, hv]
            cases counted <;> rfl
          simp only [List.set_set]
          exact congrArg (fun y : Gate × Call => ({ s with gate := y.1, calls := s.calls.set id y.2 } : Run)) hproceed

theorem Parallel.step (h : Parallel id counted t i s s') (a : Action) :
    Parallel id counted t i (s.step rules a) (s'.step rules a) := by
  obtain ⟨x, k, k', hk, hfollows⟩ := h
  have hid : id < s.calls.length := (List.getElem?_eq_some_iff.mp hk).1
  cases a with
  | pass d => exact .of_eq hk hfollows rfl
  | call r =>
      obtain ⟨y, hy⟩ := Gate.start_attempts_congr rules s.now s.unix r s.gate x
      apply Parallel.of_eq (x := y) ((List.getElem?_append_left hid).trans hk) hfollows
      refine (congrArg (fun z : Gate × Call => ({ s with gate := z.1, calls := s.calls.set id k' ++ [z.2] } : Run))
        hy).trans ?_
      simp only [Run.step, List.set_append_left _ _ hid]
  | land u result =>
      by_cases hu : s.InFlight u
      · have hu' : ({ s with gate.attempts := x, calls := s.calls.set id k' } : Run).InFlight u := hu
        rw [step_land hu, step_land hu']
        exact .of_eq hk hfollows rfl
      · have hu' : ¬({ s with gate.attempts := x, calls := s.calls.set id k' } : Run).InFlight u := hu
        rw [step_land_of_not hu, step_land_of_not hu']
        exact .of_eq hk hfollows rfl
  | resume j =>
      by_cases hj : j = id
      · subst hj
        exact .resume x hk hfollows
      · have hpending : ({ s with gate.attempts := x, calls := s.calls.set id k' } : Run).pending? j = s.pending? j := by
          rw [pending?, pending?, List.getElem?_set_ne (Ne.symm hj)]
        by_cases hstay : ∀ p, s.pending? j = some p → s.gate.cache.outcome? p.ticket = none
        · have hstay' : ∀ p, ({ s with gate.attempts := x, calls := s.calls.set id k' } : Run).pending? j = some p →
              s.gate.cache.outcome? p.ticket = none := by
            rw [hpending]
            exact hstay
          rw [step_resume_of_none hstay, step_resume_of_none hstay']
          exact .of_eq hk hfollows rfl
        · push Not at hstay
          obtain ⟨p, hp, ho⟩ := hstay
          obtain ⟨o, ho⟩ := Option.ne_none_iff_exists'.mp ho
          obtain ⟨y, hy⟩ := Gate.proceed_attempts_congr rules s.now s.unix o p s.gate x
          rw [step_resume hp ho, step_resume (hpending.trans hp) ho]
          apply Parallel.of_eq (x := y) ((List.getElem?_set_ne hj).trans hk) hfollows
          refine (congrArg (fun z : Gate × Call =>
            ({ s with gate := z.1, calls := (s.calls.set id k').set j z.2 } : Run)) hy).trans ?_
          simp only [List.set_comm _ _ hj]

theorem Parallel.after (h : Parallel id counted t i s s') (l : List Action) :
    Parallel id counted t i (after rules s l) (after rules s' l) := by
  induction l using List.reverseRecOn with
  | nil => exact h
  | append_singleton l a ih =>
      rw [after_concat, after_concat]
      exact ih.step a

theorem Parallel.result?_none (h : Parallel id counted t i s s') : s.result? id = none ↔ s'.result? id = none := by
  obtain ⟨x, k, k', hk, hfollows⟩ := h
  have hid : id < s.calls.length := (List.getElem?_eq_some_iff.mp hk).1
  rw [result?, result?, hk, List.getElem?_set_self hid]
  cases hfollows <;> simp [Call.result?]

theorem Parallel.cache (h : Parallel id counted t i s s') : s'.gate.cache = s.gate.cache := by
  cases h
  rfl

theorem Parallel.others (h : Parallel id counted t i s s') {j : Nat} (hj : j ≠ id) :
    s'.calls[j]? = s.calls[j]? := by
  cases h
  exact List.getElem?_set_ne (Ne.symm hj)

theorem Parallel.waiting (h : Parallel id counted t i s s') (hnone : s.result? id = none) :
    ∃ u, s.pending? id = some (.refresh u) ∧ s'.pending? id = some (.attempt ⟨t, i, .refresh, u⟩ counted) := by
  obtain ⟨x, k, k', hk, hfollows⟩ := h
  have hid : id < s.calls.length := (List.getElem?_eq_some_iff.mp hk).1
  cases hfollows with
  | ended a v => cases hnone.symm.trans (result?_eq_some_iff.mpr hk)
  | waiting u =>
      exact ⟨u, pending?_eq_some_iff.mpr hk, pending?_eq_some_iff.mpr (List.getElem?_set_self hid)⟩

theorem Parallel.ends (h : Parallel id counted t i s s') (hr : r.selectKey t = .error .absent)
    (hnone : s.result? id = none) {a : Action} {x : Result} (hx : (s.step rules a).result? id = some x) :
    ∃ b, x = .record b ∧ (s'.step rules a).result? id =
      some (.verdict (Gate.settle rules (s'.step rules a).unix t i (Gate.resolution t r b))) := by
  obtain ⟨u, hp, hp'⟩ := h.waiting hnone
  rcases calls_step_cases (result?_eq_some_iff.mp hx) with hold | ⟨req, rfl, hlength, -⟩ | ⟨p, o, rfl, hq, ho, hend⟩
  · cases hnone.symm.trans (result?_eq_some_iff.mpr hold)
  · exact absurd hlength (Nat.ne_of_lt (lt_of_pending? hp))
  · obtain rfl := Option.some.inj (hq.symm.trans hp)
    obtain rfl := Call.ended.inj hend
    refine ⟨finishRefresh o, rfl, ?_⟩
    rw [unix_step (a := .resume id) (by simp)]
    rw [← h.cache] at ho
    apply result?_resume hp' ho
    rw [Gate.proceed, Gate.resume, Gate.afterRefresh_eq hr]
    exact Gate.ofProgress_done rfl

theorem calls_enter (hid : id ≤ s.calls.length) (x : Gate × Call) : (s.enter id x).calls[id]? = some x.2 := by
  rw [enter, List.getElem?_append_right (by simp [hid])]
  simp [hid]

theorem result?_enter (hid : id ≤ s.calls.length) (g : Gate) (x : Result) :
    (s.enter id (g, .ended x)).result? id = some x := by
  rw [result?_eq_some_iff, calls_enter hid]

theorem set_enter (hid : id ≤ s.calls.length) (g : Gate) (k k' : Call) :
    (s.enter id (g, k)).calls.set id k' = (s.enter id (g, k')).calls := by
  have hlength : (s.calls.take id).length = id := List.length_take_of_le hid
  simp [enter, hlength]

theorem search_cases (hr : r.selectKey t = .error .absent) (rules : GateRules) (s : Run) (id : Nat)
    (counted : Bool) (i : TrustedIssuer) :
    (∃ c y a, s.force rules id r = s.enter id ({ s.gate with cache := c }, .ended (.record a)) ∧
        s.search rules id counted t i r = s.enter id ({ s.gate with cache := c, attempts := y },
          .ended (.verdict (Gate.settle rules s.unix t i (Gate.resolution t r a))))) ∨
      ∃ c u, { s.gate.cache with tally := s.gate.cache.tally.keyRefresh }.refresh rules.cache s.now r = (c, .wait u) ∧
        s.force rules id r = s.enter id ({ s.gate with cache := c }, .waiting (.refresh u)) ∧
        s.search rules id counted t i r = s.enter id ({ s.gate with cache := c },
          .waiting (.attempt ⟨t, i, .refresh, u⟩ counted)) := by
  simp only [force, search, Gate.start, Gate.afterLookup, hr]
  generalize Cache.refresh rules.cache s.now r _ = z
  obtain ⟨c, a | u⟩ := z
  · dsimp only
    rw [Gate.afterRefresh_eq hr]
    cases counted with
    | false => exact .inl ⟨c, s.gate.attempts, a, rfl, rfl⟩
    | true => exact .inl ⟨c, _, a, rfl, rfl⟩
  · exact .inr ⟨c, u, rfl, rfl, rfl⟩

theorem parallel_search (hr : r.selectKey t = .error .absent) (hid : id ≤ s.calls.length) (rules : GateRules)
    (counted : Bool) (i : TrustedIssuer) :
    Parallel id counted t i (s.force rules id r) (s.search rules id counted t i r) := by
  rcases search_cases hr rules s id counted i with ⟨c, y, a, hforce, hsearch⟩ | ⟨c, u, -, hforce, hsearch⟩
  · rw [hforce, hsearch]
    exact .of_eq (x := y) (calls_enter hid _) (.ended a _) (by rw [set_enter hid]; rfl)
  · rw [hforce, hsearch]
    exact .of_eq (x := s.gate.attempts) (calls_enter hid _) (.waiting u) (by rw [set_enter hid]; rfl)

theorem endsBy_nil {x : Result} : s.EndsBy rules id [] x ↔ s.result? id = some x := by
  refine and_iff_left ?_
  intro l' a h
  simp at h

theorem endsBy_concat {a : Action} {x : Result} :
    s.EndsBy rules id (l ++ [a]) x ↔
      ((after rules s l).step rules a).result? id = some x ∧ (after rules s l).result? id = none := by
  rw [EndsBy, after_concat]
  refine and_congr_right fun _ => ⟨fun h => h l a rfl, fun h l' b he => ?_⟩
  obtain ⟨rfl, -⟩ := List.append_inj' he rfl
  exact h

theorem result?_search (hr : r.selectKey t = .error .absent) (hid : id ≤ s.calls.length) (rules : GateRules)
    (counted : Bool) (i : TrustedIssuer) (x : Result) :
    (s.search rules id counted t i r).result? id = some x ↔
      ∃ b, (s.force rules id r).result? id = some (.record b) ∧
        x = .verdict (Gate.settle rules s.unix t i (Gate.resolution t r b)) := by
  rcases search_cases hr rules s id counted i with ⟨c, y, a, hforce, hsearch⟩ | ⟨c, u, -, hforce, hsearch⟩
  · rw [hforce, hsearch, result?_enter hid, result?_enter hid]
    constructor
    · intro hx
      exact ⟨a, rfl, (Option.some.inj hx).symm⟩
    · rintro ⟨b, hb, rfl⟩
      obtain rfl := Result.record.inj (Option.some.inj hb)
      rfl
  · rw [hforce, hsearch, result?, result?, calls_enter hid, calls_enter hid]
    simp [Call.result?]

theorem Parallel.result?_step (h : Parallel id counted t i s s') (hr : r.selectKey t = .error .absent)
    (hnone : s.result? id = none) (a : Action) (x : Result) :
    (s'.step rules a).result? id = some x ↔
      ∃ b, (s.step rules a).result? id = some (.record b) ∧
        x = .verdict (Gate.settle rules (s'.step rules a).unix t i (Gate.resolution t r b)) := by
  constructor
  · intro hx
    have hsome : (s.step rules a).result? id ≠ none := by
      rw [Ne, (h.step a).result?_none, hx]
      exact Option.some_ne_none x
    obtain ⟨y, hy⟩ := Option.ne_none_iff_exists'.mp hsome
    obtain ⟨b, rfl, hb⟩ := h.ends hr hnone hy
    exact ⟨b, hy, Option.some.inj (hx.symm.trans hb)⟩
  · rintro ⟨b, hy, rfl⟩
    obtain ⟨b', hb', hb⟩ := h.ends hr hnone hy
    obtain rfl := Result.record.inj hb'
    exact hb

/-- The search ends when the forced refresh does, as its answer decides. -/
theorem search_endsBy (hr : r.selectKey t = .error .absent) (hid : id ≤ s.calls.length) (rules : GateRules)
    (counted : Bool) (i : TrustedIssuer) (l : List Action) (x : Result) :
    (s.search rules id counted t i r).EndsBy rules id l x ↔
      ∃ b, (s.force rules id r).EndsBy rules id l (.record b) ∧
        x = .verdict (Gate.settle rules (after rules (s.search rules id counted t i r) l).unix t i
          (Gate.resolution t r b)) := by
  cases l using List.reverseRecOn with
  | nil =>
      simp only [endsBy_nil]
      exact result?_search hr hid rules counted i x
  | append_singleton l a =>
      have hp : Parallel id counted t i (after rules (s.force rules id r) l)
          (after rules (s.search rules id counted t i r) l) :=
        (parallel_search hr hid rules counted i).after l
      rw [endsBy_concat, after_concat]
      simp only [endsBy_concat]
      constructor
      · rintro ⟨hx, hnone⟩
        rw [← hp.result?_none] at hnone
        obtain ⟨b, hb, he⟩ := (hp.result?_step hr hnone a x).mp hx
        exact ⟨b, ⟨hb, hnone⟩, he⟩
      · rintro ⟨b, ⟨hb, hnone⟩, he⟩
        exact ⟨(hp.result?_step hr hnone a x).mpr ⟨b, hb, he⟩, hp.result?_none.mp hnone⟩

theorem search_spared (hr : r.selectKey t ≠ .error .absent) (rules : GateRules) (s : Run) (id : Nat)
    (counted : Bool) (i : TrustedIssuer) (a : Except AuthFault Record) :
    ∃ y, s.search rules id counted t i r = s.enter id ({ s.gate with attempts := y },
      .ended (.verdict (Gate.settle rules s.unix t i (Gate.resolution t r a)))) := by
  simp only [search, Gate.afterLookup_spared hr a]
  cases counted with
  | false => exact ⟨s.gate.attempts, rfl⟩
  | true => exact ⟨_, rfl⟩

theorem search_returns (hc : s.gate.cache.Tracked) (hid : id ≤ s.calls.length) (rules : GateRules)
    (counted : Bool) (t : Unverified) (i : TrustedIssuer) (r : Record) (l : List Action) :
    (∃ x, (after rules (s.search rules id counted t i r) l).result? id = some x) ∨
      ∃ u, u.issuer = r.issuer ∧ ((after rules (s.search rules id counted t i r) l).InFlight u ∨
        ∃ x, ((after rules (s.search rules id counted t i r) l).step rules (.resume id)).result? id = some x) := by
  by_cases hr : r.selectKey t = .error .absent
  · rcases search_cases hr rules s id counted i with ⟨c, y, a, -, hsearch⟩ | ⟨c, u, hrefresh, -, hsearch⟩
    · rw [hsearch]
      exact .inl ⟨_, result?_after (result?_enter hid _ _) l⟩
    · have hcount : { s.gate.cache with tally := s.gate.cache.tally.keyRefresh }.Tracked :=
        hc.congr rfl rfl fun j => ⟨rfl, rfl⟩
      have hafter := hcount.changes (refresh_asks rules.cache s.now r _)
      have hwait := hcount.refresh_wait (congrArg Prod.snd hrefresh)
      rw [hrefresh] at hafter hwait
      have hissuer : u.issuer = r.issuer := by
        rcases refresh_cases rules.cache s.now r { s.gate.cache with tally := s.gate.cache.tally.keyRefresh } with
          ⟨n, -, he⟩ | ⟨-, ⟨o, -, he⟩ | ⟨-, he⟩⟩
        · cases he.symm.trans hrefresh
          rfl
        · cases he.symm.trans hrefresh
        · cases he.symm.trans hrefresh
          rfl
      have hp : (s.search rules id counted t i r).pending? id =
          some (.attempt ⟨t, i, .refresh, u⟩ counted) := by
        rw [hsearch, pending?_eq_some_iff, calls_enter hid]
      have htracked : (s.search rules id counted t i r).gate.cache.Tracked := by
        rw [hsearch]
        exact hafter
      have hin : (s.search rules id counted t i r).InFlight u := by
        rw [hsearch]
        exact hwait
      rcases waits_or_ends htracked hp rfl hin l with hx | ⟨-, h⟩
      · exact .inl hx
      · exact .inr ⟨u, hissuer, h⟩
  · obtain ⟨y, hsearch⟩ := search_spared hr rules s id counted i (.ok r)
    rw [hsearch]
    exact .inl ⟨_, result?_after (result?_enter hid _ _) l⟩

/-- A call looks for the key of the token, with a record at hand. -/
structure ResolvesOnce (rules : GateRules) (s : Run) (id : Nat) (counted : Bool) (t : Unverified)
    (i : TrustedIssuer) (r : Record) : Prop where
  spared : r.selectKey t ≠ .error .absent →
    (s.search rules id counted t i r).gate.cache = s.gate.cache ∧
      ∀ a, (s.search rules id counted t i r).EndsBy rules id []
        (.verdict (Gate.settle rules s.unix t i (Gate.resolution t r a)))
  once : r.selectKey t = .error .absent → ∀ l,
    (after rules (s.search rules id counted t i r) l).gate.cache = (after rules (s.force rules id r) l).gate.cache
  others : r.selectKey t = .error .absent → ∀ l j, j ≠ id →
    (after rules (s.search rules id counted t i r) l).calls[j]? = (after rules (s.force rules id r) l).calls[j]?
  decides : r.selectKey t = .error .absent → ∀ l x,
    (s.search rules id counted t i r).EndsBy rules id l x ↔
      ∃ a, (s.force rules id r).EndsBy rules id l (.record a) ∧
        x = .verdict (Gate.settle rules (after rules (s.search rules id counted t i r) l).unix t i
          (Gate.resolution t r a))
  accepts : r.selectKey t = .error .absent → ∀ l r' k claims v,
    (s.force rules id r).EndsBy rules id l (.record (.ok r')) → r'.selectKey t = .ok k → t.verify k = .ok claims →
      Validation.check i rules.validation r'.issuer rules.service claims
          (after rules (s.search rules id counted t i r) l).unix = .ok v →
        (s.search rules id counted t i r).EndsBy rules id l (.verdict (.ok (Principal.make v i rules.service)))
  returns : ∀ l, (∃ x, (after rules (s.search rules id counted t i r) l).result? id = some x) ∨
    ∃ u, u.issuer = r.issuer ∧ ((after rules (s.search rules id counted t i r) l).InFlight u ∨
      ∃ x, ((after rules (s.search rules id counted t i r) l).step rules (.resume id)).result? id = some x)

theorem ResolvesOnce.of_tracked (hc : s.gate.cache.Tracked) (hid : id ≤ s.calls.length) (rules : GateRules)
    (counted : Bool) (t : Unverified) (i : TrustedIssuer) (r : Record) :
    ResolvesOnce rules s id counted t i r where
  spared hr := by
    refine ⟨?_, fun a => ?_⟩
    · obtain ⟨y, hsearch⟩ := search_spared hr rules s id counted i (.ok r)
      rw [hsearch]
      rfl
    · obtain ⟨y, hsearch⟩ := search_spared hr rules s id counted i a
      rw [endsBy_nil, hsearch, result?_enter hid]
  once hr l := ((parallel_search hr hid rules counted i).after l).cache
  others hr l j hj := ((parallel_search hr hid rules counted i).after l).others hj
  decides hr l x := search_endsBy hr hid rules counted i l x
  accepts hr l r' k claims v hforce hk hclaims hv := by
    rw [search_endsBy hr hid]
    refine ⟨.ok r', hforce, ?_⟩
    have hresolution : Gate.resolution t r (.ok r') = some (r', k) := by
      simp [Gate.resolution, hr, Except.toOption, hk]
    rw [hresolution, Gate.settle, Gate.conclude_ok_of hclaims hv]
  returns := search_returns hc hid rules counted t i r

/-- The lookup of a call has returned a record, and the call goes on in the same moment: it looks for the key. -/
structure GoesOn (rules : GateRules) (s : Run) (a : Action) (id : Nat) (x : Lookup) (t : Unverified) (b : Run)
    (counted : Bool) (i : TrustedIssuer) : Prop where
  epoch : b.epoch = s.epoch
  now : b.now = s.now
  calls : b.calls = s.calls
  asked : Asks rules.policy s.now s.gate.cache b.gate.cache
  next : s.step rules a = b.search rules id counted t i x.record

theorem enter_length (s : Run) (x : Gate × Call) :
    s.enter s.calls.length x = { s with gate := x.1, calls := s.calls ++ [x.2] } := by
  simp [enter]

theorem enter_of_lt (hid : id < s.calls.length) (x : Gate × Call) :
    s.enter id x = { s with gate := x.1, calls := s.calls.set id x.2 } := by
  rw [enter, List.set_eq_take_append_cons_drop, if_pos hid]

theorem goesOn_call (req : Request) (counted : Bool) {raw : Text} {x : Lookup} (ht : x.token = some t)
    (hanswered : s.gate.answered? rules s.now (.verify raw) = some x)
    (hstart : s.gate.start rules s.now s.unix req =
      Gate.ofProgress counted (s.gate.verify rules s.now s.unix raw)) :
    ∃ b i, GoesOn rules s (.call req) s.calls.length x t b counted i := by
  obtain ⟨t', i, g, ht', hasks, hverify⟩ := Gate.verify_answered hanswered s.unix
  obtain rfl := Option.some.inj (ht.symm.trans ht')
  refine ⟨{ s with gate := g }, i, rfl, rfl, rfl, hasks, ?_⟩
  rw [step, hstart, hverify]
  exact (enter_length { s with gate := g } _).symm

theorem goesOn_resume {x : Lookup} {p : Pending} {o : Outcome} (ht : x.token = some t)
    (hp : s.pending? id = some p) (ho : s.gate.cache.outcome? p.ticket = some o)
    (hcompleted : s.gate.completed? s.now o p = some x) :
    ∃ b counted i, GoesOn rules s (.resume id) id x t b counted i := by
  obtain ⟨token, htoken, hcompleted⟩ := Option.bind_eq_some_iff.mp hcompleted
  obtain ⟨record, hrecord, rfl⟩ := Option.map_eq_some_iff.mp hcompleted
  obtain rfl : token = some t := ht
  cases p with
  | get u => cases htoken
  | refresh | sweep => cases htoken
  | attempt a counted =>
      obtain ⟨t', i, phase, u⟩ := a
      cases phase with
      | refresh => cases htoken
      | lookup =>
          cases htoken
          have hasks := finishGet_asks rules.policy s.now u.issuer o s.gate.cache
          refine ⟨{ s with gate.cache := (s.gate.cache.finishGet s.now u.issuer o).1 }, counted, i, rfl, rfl, rfl,
            hasks, ?_⟩
          have hok : (s.gate.cache.finishGet s.now u.issuer o).2 = .ok record := by
            cases hfinish : (s.gate.cache.finishGet s.now u.issuer o).2 with
            | error f =>
                rw [Pending.ticket, hfinish] at hrecord
                cases hrecord
            | ok r =>
                rw [Pending.ticket, hfinish] at hrecord
                exact congrArg _ (Option.some.inj hrecord)
          rw [step_resume hp ho]
          simp only [Gate.proceed, Gate.resume, hok]
          exact (enter_of_lt (lt_of_pending? hp) _).symm

theorem exists_goesOn {a : Action} {x : Lookup} (hx : (id, x) ∈ retrievedBy rules s a) (ht : x.token = some t) :
    id ≤ s.calls.length ∧ ∃ b counted i, GoesOn rules s a id x t b counted i := by
  rcases retrievedBy_cases hx with ⟨req, rfl, rfl, hanswered⟩ | ⟨p, o, rfl, hp, ho, hcompleted⟩
  · refine ⟨Nat.le_refl _, ?_⟩
    cases req with
    | get url =>
        obtain ⟨r, -, rfl⟩ := Option.map_eq_some_iff.mp hanswered
        cases ht
    | refresh | sweep | evict | forget => cases hanswered
    | verify raw =>
        obtain ⟨b, i, h⟩ := goesOn_call (.verify raw) false ht hanswered rfl
        exact ⟨b, false, i, h⟩
    | authenticate raw =>
        obtain ⟨b, i, h⟩ := goesOn_call (.authenticate raw) true ht hanswered rfl
        exact ⟨b, true, i, h⟩
  · exact ⟨Nat.le_of_lt (lt_of_pending? hp), goesOn_resume ht hp ho hcompleted⟩

/-- A forced refresh, and no more than one, decides the search for a key that is absent from the record at hand;
without need none is made. Hence the check of a token starts two fetches at most. -/
theorem resolves_once (hs : s.Reachable rules) :
    (∀ id ≤ s.calls.length, ∀ counted t i r, ResolvesOnce rules s id counted t i r) ∧
      (∀ a id x t, (id, x) ∈ retrievedBy rules s a → x.token = some t →
        ∃ b counted i, GoesOn rules s a id x t b counted i ∧ ResolvesOnce rules b id counted t i x.record) ∧
      ∀ req raw, req.token? = some raw → ∀ l,
        (ownStarts rules s.calls.length s (.call req :: l)).length ≤ 2 := by
  have hc := hs.tracked
  refine ⟨fun id hid counted t i r => .of_tracked hc hid rules counted t i r, fun a id x t hx ht => ?_,
    fun req raw hreq l => ?_⟩
  · obtain ⟨hid, b, counted, i, h⟩ := exists_goesOn hx ht
    rw [← h.calls] at hid
    exact ⟨b, counted, i, h, .of_tracked (hc.changes h.asked) hid rules counted t i x.record⟩
  · refine (length_ownStarts_call hc rules req l).trans ?_
    rw [waitsLeft, pending?_call]
    cases hk : (s.gate.start rules s.now s.unix req).2 with
    | ended x => exact Nat.zero_le 2
    | waiting p => exact Gate.start_waits rules s.now s.unix hreq hk

def abcUnverified : Unverified := ⟨abcToken, ⟨.edDSA, some "k", none, none⟩, "https://idp.example/abc"⟩

def rotatedRun : List Action :=
  [.call (.verify abcToken), .land ⟨"https://idp.example/abc", 1⟩ (.ok abcDocument), .resume 1]

theorem resolves_once_rotated :
    (∃ x b counted i, (1, x) ∈ retrievedBy abcRules (after abcRules { epoch := 1700000000 } renamedRun)
          (.call (.verify abcToken)) ∧ x.token = some abcUnverified ∧
        x.record.selectKey abcUnverified = .error .absent ∧
        GoesOn abcRules (after abcRules { epoch := 1700000000 } renamedRun) (.call (.verify abcToken)) 1 x
          abcUnverified b counted i ∧
        ResolvesOnce abcRules b 1 counted abcUnverified i x.record) ∧
      (ownStarts abcRules 1 (after abcRules { epoch := 1700000000 } renamedRun) rotatedRun).length ≤ 2 ∧
        (after abcRules (after abcRules { epoch := 1700000000 } renamedRun) rotatedRun).result? 1 =
          some (.verdict (.ok abcPrincipal)) := by
  have hs : (after abcRules { epoch := 1700000000 } renamedRun).Reachable abcRules := ⟨1700000000, renamedRun, rfl⟩
  obtain ⟨-, hgoesOn, hstarts⟩ := resolves_once hs
  have hfound : ((retrievedBy abcRules (after abcRules { epoch := 1700000000 } renamedRun)
      (.call (.verify abcToken))).map fun x =>
        (x.1, x.2.token, decide (x.2.record.selectKey abcUnverified = .error .absent))) =
      [(1, some abcUnverified, true)] := by
    decide +kernel
  obtain ⟨⟨id, x⟩, hx, hfound⟩ := List.map_eq_singleton_iff.mp hfound
  obtain ⟨rfl, htoken, habsent⟩ : id = 1 ∧ x.token = some abcUnverified ∧
      decide (x.record.selectKey abcUnverified = .error .absent) = true := by simpa using hfound
  have hmem : (1, x) ∈ retrievedBy abcRules (after abcRules { epoch := 1700000000 } renamedRun)
      (.call (.verify abcToken)) := hx ▸ List.mem_singleton_self _
  obtain ⟨b, counted, i, hnext, hresolves⟩ := hgoesOn _ _ _ _ hmem htoken
  exact ⟨⟨x, b, counted, i, hmem, htoken, of_decide_eq_true habsent, hnext, hresolves⟩,
    hstarts (.verify abcToken) abcToken rfl _, by decide +kernel⟩

end Run

end BearerGate
