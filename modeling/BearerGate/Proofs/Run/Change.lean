import BearerGate.Proofs.Cache.Change
import BearerGate.Run
import Mathlib.Data.List.Induction

namespace BearerGate

open Cache Relation

def Request.Evicts (rules : GateRules) : Request → Text → Prop
  | .evict url, i => canonical rules.trust (canonical rules.trust url) = i
  | .forget url, i => canonical rules.trust url = i
  | _, _ => False

namespace Gate

theorem engine_cache (rules : GateRules) (claimed : Text) (g : Gate) : (g.engine rules claimed).1.cache = g.cache := by
  rw [engine]
  split
  · rfl
  · split <;> rfl

variable {rules : GateRules} {now : Millis} {unix : Int}

theorem afterLookup_asks (t : Unverified) (i : TrustedIssuer) (a : Except AuthFault Record)
    (c : Cache) : Asks rules.policy now c (afterLookup rules now unix t i a c).1 := by
  simp only [afterLookup]
  split
  · exact .refl
  · rename_i r
    split
    · exact .refl
    · exact .refl
    · have h : Asks rules.policy now c
          ({ c with tally := c.tally.keyRefresh }.refresh rules.cache now r).1 :=
        .trans (.single (.count c _)) (refresh_asks rules.cache _ _ _)
      split
      · rename_i he
        rwa [he] at h
      · rename_i he
        rwa [he] at h

theorem verify_asks (raw : Text) (g : Gate) :
    Asks rules.policy now g.cache (g.verify rules now unix raw).1.cache := by
  rw [verify]
  split
  · exact .refl
  · rename_i t _
    have hcache := engine_cache rules t.issuer g
    split
    · rename_i he
      rw [he] at hcache
      rw [← hcache]
    · rename_i g' i he
      rw [he] at hcache
      rw [← hcache]
      have hget := get_asks rules.cache now i.url g'.cache
      split
      · rename_i hg
        rwa [hg] at hget
      · rename_i hg
        rw [hg] at hget
        exact hget.trans (afterLookup_asks _ _ _ _)

theorem resume_asks (a : Attempt) (o : Outcome) (g : Gate) :
    Asks rules.policy now g.cache (g.resume rules now unix a o).1.cache := by
  rw [resume]
  split
  · exact .trans (finishGet_asks _ _ _ _ _) (afterLookup_asks _ _ _ _)
  · exact .refl

theorem ofProgress_cache (counted : Bool) (x : Gate × Progress) :
    (ofProgress counted x).1.cache = x.1.cache := by
  obtain ⟨g, p⟩ := x
  cases p with
  | wait a => rfl
  | done v => cases counted <;> rfl

theorem ofLookup_cache (g : Gate) (x : Cache × Reply (Except AuthFault Record)) (f : Ticket → Pending) :
    (g.ofLookup x f).1.cache = x.1 := by
  obtain ⟨c, r⟩ := x
  cases r <;> rfl

theorem ofSweep_cache (g : Gate) (x : Cache × Sweep) : (g.ofSweep x).1.cache = x.1 := by
  obtain ⟨c, w⟩ := x
  cases w <;> rfl

theorem start_changes (r : Request) (g : Gate) :
    Changes (r.Evicts rules) rules.policy now g.cache (g.start rules now unix r).1.cache := by
  cases r with
  | get url =>
      rw [start, ofLookup_cache]
      exact get_asks rules.cache _ _ _
  | refresh seen =>
      rw [start, ofLookup_cache]
      exact refresh_asks rules.cache _ _ _
  | sweep horizon order =>
      rw [start, ofSweep_cache]
      exact sweep_asks rules.cache _ _ _ _
  | verify token | authenticate token =>
      rw [start, ofProgress_cache]
      exact verify_asks _ _
  | evict url => exact evict_changes _ _ _ _ _
  | forget url => exact evict_changes _ _ _ _ _

theorem proceed_asks (o : Outcome) (p : Pending) (g : Gate) :
    Asks rules.policy now g.cache (g.proceed rules now unix o p).1.cache := by
  cases p with
  | get t => exact finishGet_asks _ _ _ _ _
  | refresh t => exact .refl
  | sweep t rest n =>
      rw [proceed, ofSweep_cache]
      exact resumeSweep_asks rules.cache _ _ _ _ _
  | attempt a counted =>
      rw [proceed, ofProgress_cache]
      exact resume_asks _ _ _

end Gate

def Action.Evicts (rules : GateRules) : Action → Text → Prop
  | .call r, i => r.Evicts rules i
  | _, _ => False

namespace Run

variable {rules : GateRules} {s : Run} {t : Ticket}

def InFlight (s : Run) (t : Ticket) : Prop := t ∈ s.gate.cache.flights.map Prod.fst

instance (s : Run) (t : Ticket) : Decidable (s.InFlight t) := inferInstanceAs (Decidable (t ∈ _))

theorem step_land (h : s.InFlight t) (result : Except FetchFault Document) :
    s.step rules (.land t result) =
      { s with gate.cache := s.gate.cache.land rules.policy s.now t result } :=
  if_pos h

theorem step_land_of_not (h : ¬s.InFlight t) (result : Except FetchFault Document) :
    s.step rules (.land t result) = s :=
  if_neg h

theorem step_resume {id : Nat} {p : Pending} {o : Outcome} (hp : s.pending? id = some p)
    (ho : s.gate.cache.outcome? p.ticket = some o) :
    s.step rules (.resume id) =
      { s with
        gate := (s.gate.proceed rules s.now s.unix o p).1
        calls := s.calls.set id (s.gate.proceed rules s.now s.unix o p).2 } := by
  simp only [step, hp, ho]

theorem step_resume_of_none {id : Nat}
    (h : ∀ p, s.pending? id = some p → s.gate.cache.outcome? p.ticket = none) :
    s.step rules (.resume id) = s := by
  simp only [step]
  split
  · rfl
  · rename_i p hp
    rw [h p hp]

/-- One action either lands a fetch under way or does what calls do. -/
theorem step_cache (rules : GateRules) (s : Run) (a : Action) :
    (∃ t result, a = .land t result ∧ s.InFlight t ∧
        (s.step rules a).gate.cache = s.gate.cache.land rules.policy s.now t result) ∨
      Changes (a.Evicts rules) rules.policy s.now s.gate.cache (s.step rules a).gate.cache := by
  cases a with
  | pass d => exact .inr .refl
  | call r => exact .inr (Gate.start_changes r s.gate)
  | land t result =>
      by_cases h : s.InFlight t
      · exact .inl ⟨t, result, rfl, h, by rw [step_land h]⟩
      · rw [step_land_of_not h]
        exact .inr .refl
  | resume id =>
      refine .inr ?_
      simp only [step]
      split
      · exact .refl
      · split
        · exact .refl
        · exact Gate.proceed_asks _ _ _

theorem after_append (s : Run) (l l' : List Action) :
    after rules s (l ++ l') = after rules (after rules s l) l' :=
  List.foldl_append

theorem after_cons (s : Run) (a : Action) (l : List Action) :
    after rules s (a :: l) = after rules (s.step rules a) l := rfl

theorem after_concat (s : Run) (l : List Action) (a : Action) :
    after rules s (l ++ [a]) = (after rules s l).step rules a := by
  rw [after_append]
  rfl

theorem cache_invariant {P : Cache → Prop}
    (hchange : ∀ E now c c', Change E rules.policy now c c' → P c → P c')
    (hland : ∀ now c t result, t ∈ c.flights.map Prod.fst → P c → P (c.land rules.policy now t result))
    (hs : P s.gate.cache) (l : List Action) : P (after rules s l).gate.cache := by
  induction l using List.reverseRecOn with
  | nil => exact hs
  | append_singleton l a ih =>
      rw [after_concat]
      rcases step_cache rules (after rules s l) a with ⟨t, result, -, ht, he⟩ | h
      · rw [he]
        exact hland _ _ _ _ ht ih
      · exact h.preserve (hchange _ _) ih

/-- In the course of the actions the fetch lands, with this outcome. -/
def Lands (rules : GateRules) (s : Run) (l : List Action) (t : Ticket) (o : Outcome) : Prop :=
  ∃ l₁ result l₂, l = l₁ ++ .land t result :: l₂ ∧ (after rules s l₁).InFlight t ∧
    o = Cache.outcome rules.policy (after rules s l₁).now t.issuer
      (after rules s l₁).gate.cache.generation result

theorem Lands.append {l : List Action} {o : Outcome} (h : Lands rules s l t o) (l' : List Action) :
    Lands rules s (l ++ l') t o := by
  obtain ⟨l₁, result, l₂, rfl, hf, ho⟩ := h
  exact ⟨l₁, result, l₂ ++ l', by simp, hf, ho⟩

theorem Lands.cons {l : List Action} {a : Action} {o : Outcome} (h : Lands rules (s.step rules a) l t o) :
    Lands rules s (a :: l) t o := by
  obtain ⟨l₁, result, l₂, rfl, hf, ho⟩ := h
  exact ⟨a :: l₁, result, l₂, rfl, hf, ho⟩

end Run

end BearerGate
