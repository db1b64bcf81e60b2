import BearerGate.Proofs.Cache.Tally
import BearerGate.Proofs.Run.Backoff

namespace BearerGate

open Cache

/-- A lookup that has returned a record: of which issuer, after which fetch if it waited for one, and for which
token if a key is looked for. -/
structure Lookup where
  issuer : Text
  fetch : Option Ticket
  token : Option Unverified
  record : Record

namespace Lookup

def hits (now : Millis) (x : Lookup) : Bool := x.fetch.isNone && x.record.isFresh now

def misses (c : Cache) (x : Lookup) : Bool := x.fetch.bind c.outcome? = some (.ok x.record)

def forces (x : Lookup) : Bool := x.token.any fun t => x.record.selectKey t = .error .absent

def count (c : Cache) (now : Millis) (t : Tally) (x : Lookup) : Tally :=
  let t := if x.hits now then t.hit else if x.misses c then t.miss else t.stale
  if x.forces then t.keyRefresh else t

variable {c : Cache} {now : Millis} {t : Tally} {issuer : Text} {token : Option Unverified} {r : Record}

theorem count_at_once : count c now t ⟨issuer, none, token, r⟩ =
    if forces ⟨issuer, none, token, r⟩ then (if r.isFresh now then t.hit else t.stale).keyRefresh
    else if r.isFresh now then t.hit else t.stale := by
  simp [count, hits, misses]

theorem count_after {u : Ticket} {o : Outcome} (ho : c.outcome? u = some o) :
    count c now t ⟨issuer, some u, token, r⟩ =
      if forces ⟨issuer, some u, token, r⟩ then (if o = .ok r then t.miss else t.stale).keyRefresh
      else if o = .ok r then t.miss else t.stale := by
  simp [count, hits, misses, ho]

theorem forces_token (u : Option Ticket) (token : Unverified) :
    forces ⟨issuer, u, some token, r⟩ = decide (r.selectKey token = .error .absent) := rfl

theorem not_misses_of_hits {x : Lookup} (h : x.hits now) : x.misses c = false := by
  obtain ⟨hfetch, -⟩ := Bool.and_eq_true_iff.mp h
  rw [misses, Option.isNone_iff_eq_none.mp hfetch]
  rfl

/-- A lookup counts once, as a hit or as a miss or else as stale, and for the refresh that it forces. -/
theorem count_eq (c : Cache) (now : Millis) (t : Tally) (x : Lookup) :
    x.count c now t =
      ⟨t.hits + if x.hits now then 1 else 0, t.misses + if x.misses c then 1 else 0,
        t.stales + if !x.hits now && !x.misses c then 1 else 0, t.stored, t.failed,
        t.keyRefreshes + if x.forces then 1 else 0⟩ := by
  rw [count]
  cases hh : x.hits now with
  | true =>
      rw [not_misses_of_hits hh]
      cases x.forces <;> rfl
  | false => cases x.misses c <;> cases x.forces <;> rfl

end Lookup

def Pending.asked? : Pending → Option (Option Unverified)
  | .get _ => some none
  | .attempt a _ => if a.phase = .lookup then some (some a.token) else none
  | _ => none

/-- The call that waits may be one that the request has begun. -/
inductive Pending.Serves : Pending → Request → Prop
  | get (url : Text) (t : Ticket) : Serves (.get t) (.get url)
  | refresh (seen : Record) (t : Ticket) : Serves (.refresh t) (.refresh seen)
  | sweep (horizon : Millis) (order : List Text) (t : Ticket) (rest : List Due) (n : Nat) :
      Serves (.sweep t rest n) (.sweep horizon order)
  | verify (raw : Text) (a : Gate.Attempt) : Serves (.attempt a false) (.verify raw)
  | authenticate (raw : Text) (a : Gate.Attempt) : Serves (.attempt a true) (.authenticate raw)

def Gate.Progress.isPastLookup : Gate.Progress → Bool
  | .wait a => a.phase = .refresh
  | .done (.ok _) => true
  | .done (.error r) => r.stage ≠ .received && r.stage ≠ .headerParsed

def Call.isPastLookup : Call → Bool
  | .waiting (.attempt a _) => a.phase = .refresh
  | .ended (.verdict v) => (Gate.Progress.done v).isPastLookup
  | _ => false

def Request.hasRecord : Request → Call → Bool
  | .get _, .ended (.record a) => a.toOption.isSome
  | .verify _, k | .authenticate _, k => k.isPastLookup
  | _, _ => false

def Request.isCounted : Request → Bool
  | .authenticate _ => true
  | _ => false

def Pending.isCounted : Pending → Bool
  | .attempt _ counted => counted
  | _ => false

def Call.verdict? : Call → Option Verdict
  | .ended (.verdict v) => some v
  | _ => none

/-- What the counters tell verdicts apart by: the reason of a rejection. -/
def Verdict.reason? : Verdict → Option Text
  | .ok _ => none
  | .error r => some r.fault.reason

/-- The counter of the attempts that were rejected for the reason, or of those that were accepted. -/
def Attempts.number (a : Attempts) : Option Text → Nat
  | none => a.accepted
  | some reason => (a.rejected.lookup reason).getD 0

theorem Attempts.number_count (a : Attempts) (v : Verdict) (k : Option Text) :
    (a.count v).number k = a.number k + if v.reason? = k then 1 else 0 := by
  cases v with
  | ok p => cases k <;> simp [count, number, Verdict.reason?]
  | error r =>
      cases k with
      | none => rfl
      | some reason =>
          by_cases hr : reason = r.fault.reason
          · subst hr
            simp [count, number, Verdict.reason?, Assoc.lookup_set_self]
          · simp [count, number, Verdict.reason?, Assoc.lookup_set_ne hr, Ne.symm hr]

theorem Pending.Serves.isCounted {p : Pending} {r : Request} (h : p.Serves r) : p.isCounted = r.isCounted := by
  cases h <;> rfl

def Call.isCountedAs (k : Option Text) (r : Request) (c : Call) : Bool :=
  r.isCounted && c.verdict?.any fun v => v.reason? = k

theorem Attempts.number_concluded (a : Attempts) (k : Option Text) (r : Request) (c : Call) :
    (if r.isCounted then c.verdict?.elim a a.count else a).number k =
      a.number k + if c.isCountedAs k r then 1 else 0 := by
  rw [Call.isCountedAs]
  cases r.isCounted with
  | false => rfl
  | true =>
      cases c.verdict? with
      | none => rfl
      | some v => simp [number_count]

namespace Gate

def asks? (rules : GateRules) (g : Gate) : Request → Option (Text × Option Unverified)
  | .get url => some (url, none)
  | .verify raw | .authenticate raw =>
    (Unverified.parse raw).toOption.bind fun t => (g.engine rules t.issuer).2.map fun e => (e.url, some t)
  | _ => none

/-- The lookup of a request that gets a record at once. -/
def answered? (rules : GateRules) (now : Millis) (g : Gate) (r : Request) : Option Lookup :=
  (g.asks? rules r).bind fun (url, token) =>
    (g.cache.get rules.cache now url).2.record?.map fun record =>
      ⟨canonical rules.trust url, none, token, record⟩

def completed? (now : Millis) (o : Outcome) (g : Gate) (p : Pending) : Option Lookup :=
  p.asked?.bind fun token =>
    (g.cache.finishGet now p.ticket.issuer o).2.toOption.map fun record =>
      ⟨p.ticket.issuer, some p.ticket, token, record⟩

variable {rules : GateRules} {now : Millis} {unix : Int} {g : Gate}

theorem afterLookup_tally (rules : GateRules) (now : Millis) (unix : Int) (t : Unverified) (i : TrustedIssuer)
    (a : Except AuthFault Record) (c : Cache) :
    (afterLookup rules now unix t i a c).1.tally = a.toOption.elim c.tally fun r =>
      if r.selectKey t = .error .absent then c.tally.keyRefresh else c.tally := by
  cases a with
  | error f => rfl
  | ok r =>
      rw [afterLookup, Except.toOption, Option.elim_some]
      split
      · rename_i k hk
        rw [hk, if_neg (by simp)]
      · rename_i hk
        rw [hk, if_neg (by simp)]
      · rename_i hk
        have hrefresh := refresh_tally rules.cache now r { c with tally := c.tally.keyRefresh }
        rw [hk, if_pos rfl]
        split
        · rename_i he
          rwa [he] at hrefresh
        · rename_i he
          rwa [he] at hrefresh

theorem answered?_of_asks {r : Request} {url : Text} {token : Option Unverified}
    (h : g.asks? rules r = some (url, token)) :
    g.answered? rules now r = (g.cache.get rules.cache now url).2.record?.map fun record =>
      ⟨canonical rules.trust url, none, token, record⟩ := by
  rw [answered?, h, Option.bind_some]

theorem answered?_of_asks_none {r : Request} (h : g.asks? rules r = none) : g.answered? rules now r = none := by
  rw [answered?, h, Option.bind_none]

/-- How an attempt begins: it is turned away before it asks for a record, or it waits for the record, or it goes on
with what the lookup gives at once. -/
theorem verify_cases (rules : GateRules) (now : Millis) (unix : Int) (raw : Text) (g : Gate) :
    (g.asks? rules (.verify raw) = none ∧ (g.verify rules now unix raw).1.cache = g.cache ∧
        (g.verify rules now unix raw).2.isPastLookup = false ∧
          ∀ a, (g.verify rules now unix raw).2 ≠ .wait a) ∨
      ∃ t e, g.asks? rules (.verify raw) = some (e.url, some t) ∧
        ((∃ c u, g.cache.get rules.cache now e.url = (c, .wait u) ∧
            (g.verify rules now unix raw).1.cache = c ∧
              (g.verify rules now unix raw).2 = .wait ⟨t, e, .lookup, u⟩) ∨
          ∃ c a, g.cache.get rules.cache now e.url = (c, .done a) ∧
            (g.verify rules now unix raw).1.cache = (afterLookup rules now unix t e a c).1 ∧
              (g.verify rules now unix raw).2 = (afterLookup rules now unix t e a c).2) := by
  rw [verify, asks?]
  cases hp : Unverified.parse raw with
  | error f =>
      refine .inl ⟨rfl, rfl, rfl, fun a h => ?_⟩
      cases h
  | ok t =>
      have hcache := engine_cache rules t.issuer g
      rw [Except.toOption, Option.bind_some]
      dsimp only
      generalize g.engine rules t.issuer = x at hcache ⊢
      obtain ⟨g', _ | e⟩ := x
      · refine .inl ⟨rfl, hcache, rfl, fun a h => ?_⟩
        cases h
      · have hcache : g'.cache = g.cache := hcache
        refine .inr ⟨t, e, rfl, ?_⟩
        rw [← hcache]
        dsimp only
        generalize g'.cache.get rules.cache now e.url = y
        obtain ⟨c, u | a⟩ := y
        · exact .inr ⟨c, _, rfl, rfl, rfl⟩
        · exact .inl ⟨c, _, rfl, rfl, rfl⟩

theorem verify_tally (raw : Text) (g : Gate) :
    (g.verify rules now unix raw).1.cache.tally =
      (g.answered? rules now (.verify raw)).elim g.cache.tally (Lookup.count g.cache now g.cache.tally) := by
  rcases verify_cases rules now unix raw g with ⟨hasks, hcache, -, -⟩ | ⟨t, e, hasks, hlookup⟩
  · rw [answered?_of_asks_none hasks, hcache]
    rfl
  · have hget := get_tally rules.cache now e.url g.cache
    rw [answered?_of_asks hasks]
    rcases hlookup with ⟨c, u, he, hcache, -⟩ | ⟨c, a, he, hcache, -⟩
    · rw [he] at hget
      rw [hcache, he]
      exact hget
    · have htally := afterLookup_tally rules now unix t e a c
      rw [he] at hget
      rw [hcache, he]
      cases a with
      | error f => exact htally.trans hget
      | ok r =>
          have hget : c.tally = if r.isFresh now then g.cache.tally.hit else g.cache.tally.stale := hget
          rw [Reply.record?, Option.map_some, Option.elim_some, Lookup.count_at_once, Lookup.forces_token,
            ← hget]
          simpa [Except.toOption] using htally

theorem resume_tally (a : Attempt) {o : Outcome} (ho : g.cache.outcome? a.ticket = some o) (counted : Bool) :
    (g.resume rules now unix a o).1.cache.tally =
      (g.completed? now o (.attempt a counted)).elim g.cache.tally (Lookup.count g.cache now g.cache.tally) := by
  rw [resume, completed?, Pending.asked?]
  split
  · rename_i hphase
    have hfinish := finishGet_tally now a.ticket.issuer o g.cache
    rw [if_pos hphase, Option.bind_some, Pending.ticket]
    generalize g.cache.finishGet now a.ticket.issuer o = x at hfinish ⊢
    obtain ⟨c, answer⟩ := x
    have htally := afterLookup_tally rules now unix a.token a.issuer answer c
    cases answer with
    | error f => exact htally.trans hfinish
    | ok r =>
        have hfinish : c.tally = if o = .ok r then g.cache.tally.miss else g.cache.tally.stale := hfinish
        rw [Except.toOption, Option.map_some, Option.elim_some, Lookup.count_after ho, Lookup.forces_token,
          ← hfinish]
        simpa [Except.toOption] using htally
  · rename_i hphase
    rw [if_neg (by simp [hphase])]
    rfl

theorem start_tally (rules : GateRules) (now : Millis) (unix : Int) (r : Request) (g : Gate) :
    (g.start rules now unix r).1.cache.tally =
      (g.answered? rules now r).elim g.cache.tally (Lookup.count g.cache now g.cache.tally) := by
  cases r with
  | get url =>
      rw [start, ofLookup_cache, get_tally, answered?, asks?, Option.bind_some]
      dsimp only
      cases (g.cache.get rules.cache now url).2.record? with
      | none => rfl
      | some r =>
          rw [Option.elim_some, Option.map_some, Option.elim_some, Lookup.count_at_once]
          rfl
  | refresh seen =>
      rw [start, ofLookup_cache, refresh_tally]
      rfl
  | sweep horizon order =>
      rw [start, ofSweep_cache, sweep_tally]
      rfl
  | verify token | authenticate token =>
      rw [start, ofProgress_cache]
      exact verify_tally token g
  | evict url => exact evict_tally _ _ _
  | forget url => exact evict_tally _ _ _

theorem proceed_tally (rules : GateRules) (now : Millis) (unix : Int) (p : Pending) {o : Outcome}
    (ho : g.cache.outcome? p.ticket = some o) :
    (g.proceed rules now unix o p).1.cache.tally =
      (g.completed? now o p).elim g.cache.tally (Lookup.count g.cache now g.cache.tally) := by
  cases p with
  | get t =>
      rw [proceed, completed?, Pending.asked?, Option.bind_some, Pending.ticket, finishGet_tally]
      cases (g.cache.finishGet now t.issuer o).2 with
      | error f => rfl
      | ok r =>
          have ho : g.cache.outcome? t = some o := ho
          rw [Except.toOption, Option.elim_some, Option.map_some, Option.elim_some, Lookup.count_after ho]
          rfl
  | refresh t => rfl
  | sweep t rest n =>
      rw [proceed, ofSweep_cache, resumeSweep_tally]
      rfl
  | attempt a counted =>
      rw [proceed, ofProgress_cache]
      exact resume_tally a ho counted

theorem engine_attempts (rules : GateRules) (claimed : Text) (g : Gate) :
    (g.engine rules claimed).1.attempts = g.attempts := by
  rw [engine]
  split
  · rfl
  · split <;> rfl

theorem verify_attempts (raw : Text) (g : Gate) : (g.verify rules now unix raw).1.attempts = g.attempts := by
  rw [verify]
  split
  · rfl
  · rename_i t _
    have hengine := engine_attempts rules t.issuer g
    split
    · rename_i he
      rwa [he] at hengine
    · rename_i he
      rw [he] at hengine
      split <;> exact hengine

theorem resume_attempts (a : Attempt) (o : Outcome) (g : Gate) :
    (g.resume rules now unix a o).1.attempts = g.attempts := by
  rw [resume]
  split <;> rfl

theorem ofProgress_attempts (counted : Bool) (x : Gate × Progress) :
    (ofProgress counted x).1.attempts =
      if counted then (ofProgress counted x).2.verdict?.elim x.1.attempts x.1.attempts.count
      else x.1.attempts := by
  obtain ⟨g, p⟩ := x
  cases p with
  | wait a => cases counted <;> rfl
  | done v => cases counted <;> rfl

theorem ofLookup_attempts (g : Gate) (x : Cache × Reply (Except AuthFault Record)) (f : Ticket → Pending) :
    (g.ofLookup x f).1.attempts = g.attempts := by
  obtain ⟨c, r⟩ := x
  cases r <;> rfl

theorem ofSweep_attempts (g : Gate) (x : Cache × Sweep) : (g.ofSweep x).1.attempts = g.attempts := by
  obtain ⟨c, w⟩ := x
  cases w <;> rfl

theorem start_attempts (r : Request) (g : Gate) :
    (g.start rules now unix r).1.attempts =
      if r.isCounted then (g.start rules now unix r).2.verdict?.elim g.attempts g.attempts.count
      else g.attempts := by
  cases r with
  | get url => exact ofLookup_attempts _ _ _
  | refresh seen => exact ofLookup_attempts _ _ _
  | sweep horizon order => exact ofSweep_attempts _ _
  | verify token =>
      rw [start, ofProgress_attempts]
      exact verify_attempts token g
  | authenticate token =>
      rw [start, ofProgress_attempts, verify_attempts]
      rfl
  | evict url | forget url => rfl

theorem proceed_attempts (o : Outcome) (p : Pending) (g : Gate) :
    (g.proceed rules now unix o p).1.attempts =
      if p.isCounted then (g.proceed rules now unix o p).2.verdict?.elim g.attempts g.attempts.count
      else g.attempts := by
  cases p with
  | get t | refresh t => rfl
  | sweep t rest n => exact ofSweep_attempts _ _
  | attempt a counted =>
      rw [proceed, ofProgress_attempts, resume_attempts]
      rfl

theorem start_number (rules : GateRules) (now : Millis) (unix : Int) (k : Option Text) (r : Request) (g : Gate) :
    (g.start rules now unix r).1.attempts.number k =
      g.attempts.number k + if (g.start rules now unix r).2.isCountedAs k r then 1 else 0 := by
  rw [start_attempts, Attempts.number_concluded]

theorem proceed_number (rules : GateRules) (now : Millis) (unix : Int) (k : Option Text) {r : Request} {p : Pending}
    (hp : p.Serves r) (o : Outcome) (g : Gate) :
    (g.proceed rules now unix o p).1.attempts.number k =
      g.attempts.number k + if (g.proceed rules now unix o p).2.isCountedAs k r then 1 else 0 := by
  rw [proceed_attempts, hp.isCounted, Attempts.number_concluded]

theorem start_serves {r : Request} {q : Pending} (h : (g.start rules now unix r).2 = .waiting q) :
    q.Serves r := by
  cases r with
  | get url =>
      obtain ⟨t, -, rfl⟩ := ofLookup_waiting h
      exact .get url t
  | refresh seen =>
      obtain ⟨t, -, rfl⟩ := ofLookup_waiting h
      exact .refresh seen t
  | sweep horizon order =>
      obtain ⟨t, rest, n, -, rfl⟩ := ofSweep_waiting h
      exact .sweep horizon order t rest n
  | verify token =>
      obtain ⟨a, -, rfl⟩ := ofProgress_waiting h
      exact .verify token a
  | authenticate token =>
      obtain ⟨a, -, rfl⟩ := ofProgress_waiting h
      exact .authenticate token a
  | evict url | forget url => cases h

theorem proceed_serves {r : Request} {p q : Pending} {o : Outcome} (hp : p.Serves r)
    (h : (g.proceed rules now unix o p).2 = .waiting q) : q.Serves r := by
  cases hp with
  | get | refresh => cases h
  | sweep horizon order =>
      obtain ⟨t, rest, n, -, rfl⟩ := ofSweep_waiting h
      exact .sweep horizon order t rest n
  | verify token =>
      obtain ⟨a, -, rfl⟩ := ofProgress_waiting h
      exact .verify token a
  | authenticate token =>
      obtain ⟨a, -, rfl⟩ := ofProgress_waiting h
      exact .authenticate token a

theorem answered?_eq_some {r : Request} {x : Lookup} (h : g.answered? rules now r = some x) :
    x.fetch = none ∧ g.cache.record? x.issuer = some x.record := by
  obtain ⟨⟨url, token⟩, -, h⟩ := Option.bind_eq_some_iff.mp h
  obtain ⟨record, hrecord, rfl⟩ := Option.map_eq_some_iff.mp h
  obtain ⟨j, hj, hr⟩ := get_record? hrecord
  have hcanonical : canonical rules.trust url = j.url := by
    have hj : rules.trust.resolve? url = some j := hj
    rw [canonical, hj]
  exact ⟨rfl, hcanonical ▸ hr⟩

theorem completed?_eq_some {o : Outcome} {p : Pending} {x : Lookup} (h : g.completed? now o p = some x) :
    x.issuer = p.ticket.issuer ∧ x.fetch = some p.ticket ∧ p.asked? = some x.token := by
  obtain ⟨token, htoken, h⟩ := Option.bind_eq_some_iff.mp h
  obtain ⟨record, -, rfl⟩ := Option.map_eq_some_iff.mp h
  exact ⟨rfl, rfl, htoken⟩

theorem start_get {url : Text} {x : Lookup} (h : g.answered? rules now (.get url) = some x) :
    (g.start rules now unix (.get url)).2 = .ended (.record (.ok x.record)) := by
  rw [answered?, asks?, Option.bind_some, Option.map_eq_some_iff] at h
  obtain ⟨record, hrecord, rfl⟩ := h
  rw [start]
  generalize g.cache.get rules.cache now url = y at hrecord ⊢
  obtain ⟨c, reply⟩ := y
  cases reply with
  | wait t => cases hrecord
  | done a =>
      cases a with
      | error f => cases hrecord
      | ok r =>
          obtain rfl := Option.some.inj hrecord
          rfl

theorem proceed_get {t : Ticket} {o : Outcome} {x : Lookup} (h : g.completed? now o (.get t) = some x) :
    (g.proceed rules now unix o (.get t)).2 = .ended (.record (.ok x.record)) := by
  rw [completed?, Pending.asked?, Option.bind_some, Option.map_eq_some_iff] at h
  obtain ⟨record, hrecord, rfl⟩ := h
  rw [proceed]
  dsimp only [Pending.ticket] at hrecord
  generalize g.cache.finishGet now t.issuer o = y at hrecord ⊢
  obtain ⟨c, a⟩ := y
  cases a with
  | error f => cases hrecord
  | ok r =>
      obtain rfl := Option.some.inj hrecord
      rfl

theorem verify_lookup (hc : g.cache.Tracked) {raw : Text} {a : Attempt}
    (h : (g.verify rules now unix raw).2 = .wait a) (hphase : a.phase = .lookup) :
    atHand? now (g.cache.slot a.ticket.issuer) = none ∧ g.answered? rules now (.verify raw) = none := by
  rcases verify_cases rules now unix raw g with
    ⟨-, -, -, hdone⟩ | ⟨t, e, hasks, ⟨c, u, he, -, hwait⟩ | ⟨c, r, he, -, hp⟩⟩
  · exact absurd h (hdone a)
  · obtain rfl := Progress.wait.inj (hwait.symm.trans h)
    refine ⟨get_waits (congrArg Prod.snd he), ?_⟩
    rw [answered?_of_asks hasks, he]
    rfl
  · have hafter := hc.changes (get_asks rules.cache now e.url g.cache)
    rw [he] at hafter
    rw [(afterLookup_wait hafter (hp.symm.trans h)).1] at hphase
    cases hphase

theorem ofProgress_isPastLookup (counted : Bool) (x : Gate × Progress) :
    (ofProgress counted x).2.isPastLookup = x.2.isPastLookup := by
  obtain ⟨g, p⟩ := x
  cases p with
  | wait a => rfl
  | done v => cases v <;> rfl

theorem conclude_isPastLookup (rules : GateRules) (unix : Int) (t : Unverified) (i : TrustedIssuer) (r : Record)
    (k : SigningKey) : (Progress.done (conclude rules unix t i r k)).isPastLookup = true := by
  rw [conclude]
  split
  · rfl
  · split <;> rfl

theorem afterRefresh_isPastLookup (rules : GateRules) (unix : Int) (t : Unverified) (i : TrustedIssuer)
    (a : Except AuthFault Record) : (afterRefresh rules unix t i a).isPastLookup = true := by
  simp only [afterRefresh]
  split
  · rfl
  · split
    · exact conclude_isPastLookup _ _ _ _ _ _
    · rfl

theorem afterLookup_isPastLookup (rules : GateRules) (now : Millis) (unix : Int) (t : Unverified)
    (i : TrustedIssuer) (a : Except AuthFault Record) (c : Cache) :
    (afterLookup rules now unix t i a c).2.isPastLookup = a.toOption.isSome := by
  cases a with
  | error f => rfl
  | ok r =>
      rw [afterLookup]
      split
      · exact conclude_isPastLookup _ _ _ _ _ _
      · rfl
      · split
        · rfl
        · exact afterRefresh_isPastLookup _ _ _ _ _

theorem verify_isPastLookup (raw : Text) (g : Gate) :
    (g.verify rules now unix raw).2.isPastLookup = (g.answered? rules now (.verify raw)).isSome := by
  rcases verify_cases rules now unix raw g with
    ⟨hasks, -, hpast, -⟩ | ⟨t, e, hasks, ⟨c, u, he, -, hwait⟩ | ⟨c, a, he, -, hp⟩⟩
  · rw [hpast, answered?_of_asks_none hasks]
    rfl
  · rw [hwait, answered?_of_asks hasks, he]
    rfl
  · rw [hp, afterLookup_isPastLookup, answered?_of_asks hasks, he]
    cases a <;> rfl

theorem resume_isPastLookup (a : Attempt) (o : Outcome) (counted : Bool) (g : Gate) :
    (g.resume rules now unix a o).2.isPastLookup =
      (decide (a.phase = .refresh) || (g.completed? now o (.attempt a counted)).isSome) := by
  rw [resume, completed?, Pending.asked?]
  split
  · rename_i hphase
    rw [hphase, if_pos rfl, Option.bind_some, Option.isSome_map]
    exact afterLookup_isPastLookup _ _ _ _ _ _ _
  · rename_i hphase
    rw [hphase]
    exact afterRefresh_isPastLookup _ _ _ _ _

theorem start_hasRecord (rules : GateRules) (now : Millis) (unix : Int) (r : Request) (g : Gate) :
    r.hasRecord (g.start rules now unix r).2 = (g.answered? rules now r).isSome := by
  cases r with
  | get url =>
      rw [start, answered?, asks?, Option.bind_some, Option.isSome_map]
      generalize g.cache.get rules.cache now url = x
      obtain ⟨c, reply⟩ := x
      cases reply with
      | wait u => rfl
      | done a => cases a <;> rfl
  | refresh | sweep | evict | forget => rfl
  | verify token | authenticate token =>
      rw [start, Request.hasRecord, ofProgress_isPastLookup]
      exact verify_isPastLookup token g

theorem proceed_hasRecord (rules : GateRules) (now : Millis) (unix : Int) {r : Request} {p : Pending}
    (hp : p.Serves r) (o : Outcome) (g : Gate) :
    r.hasRecord (g.proceed rules now unix o p).2 =
      (r.hasRecord (.waiting p) || (g.completed? now o p).isSome) := by
  cases hp with
  | get url t =>
      rw [proceed, completed?, Pending.asked?, Option.bind_some, Option.isSome_map]
      dsimp only [Pending.ticket]
      generalize g.cache.finishGet now t.issuer o = x
      obtain ⟨c, a⟩ := x
      cases a <;> rfl
  | refresh | sweep => rfl
  | verify raw a | authenticate raw a =>
      rw [proceed, Request.hasRecord, ofProgress_isPastLookup]
      exact resume_isPastLookup a o _ g

theorem hasRecord_of_asked {r : Request} {p : Pending} (hp : p.Serves r) (hasked : p.asked? ≠ none) :
    r.hasRecord (.waiting p) = false := by
  cases hp with
  | get | refresh | sweep => rfl
  | verify raw a | authenticate raw a =>
      have hphase : a.phase = .lookup := by
        by_contra hphase
        exact hasked (if_neg hphase)
      simp [Request.hasRecord, Call.isPastLookup, hphase]

theorem start_asked (hc : g.cache.Tracked) {r : Request} {q : Pending}
    (h : (g.start rules now unix r).2 = .waiting q) (hq : q.asked? ≠ none) :
    atHand? now (g.cache.slot q.ticket.issuer) = none ∧ g.answered? rules now r = none := by
  cases r with
  | get url =>
      obtain ⟨t, ht, rfl⟩ := ofLookup_waiting h
      refine ⟨get_waits ht, ?_⟩
      rw [answered?, asks?, Option.bind_some]
      simp [ht]
  | refresh seen =>
      obtain ⟨t, -, rfl⟩ := ofLookup_waiting h
      exact absurd rfl hq
  | sweep horizon order =>
      obtain ⟨t, rest, n, -, rfl⟩ := ofSweep_waiting h
      exact absurd rfl hq
  | verify token | authenticate token =>
      obtain ⟨a, ha, rfl⟩ := ofProgress_waiting h
      refine verify_lookup hc ha ?_
      by_contra hphase
      exact hq (if_neg hphase)
  | evict url | forget url => cases h

theorem proceed_asked (hc : g.cache.Tracked) {p q : Pending} {o : Outcome}
    (h : (g.proceed rules now unix o p).2 = .waiting q) : q.asked? = none := by
  cases p with
  | get t | refresh t => cases h
  | sweep t rest n =>
      obtain ⟨u, rest', k, -, rfl⟩ := ofSweep_waiting h
      rfl
  | attempt a counted =>
      obtain ⟨b, hb, rfl⟩ := ofProgress_waiting h
      have hphase := (resume_wait hc hb).2.1
      exact if_neg (by simp [hphase])

end Gate

end BearerGate
