import BearerGate.Proofs.Run.Played
import BearerGate.Server.Basic

namespace BearerGate

namespace Http

def Fields.Lacks (f : Fields) (name : Text) : Prop := ∀ x ∈ f, Text.lower x.1 ≠ name

instance (f : Fields) (name : Text) : Decidable (f.Lacks name) := inferInstanceAs (Decidable (∀ x ∈ f, _))

def Fields.Unreadable (f : Fields) (name : Text) : Prop := f.text? name = none ∧ ¬f.Lacks name

instance (f : Fields) (name : Text) : Decidable (f.Unreadable name) := inferInstanceAs (Decidable (_ ∧ _))

/-- The value under the name, or the default if there is no such field. -/
def Fields.Gives (f : Fields) (name default value : Text) : Prop :=
  f.text? name = some value ∨ f.Lacks name ∧ value = default

variable {f : Fields} {name : Text}

theorem gives_getD (h : ¬f.Unreadable name) (default : Text) :
    f.Gives name default ((f.text? name).getD default) := by
  by_cases hl : f.Lacks name
  · cases ht : f.text? name with
    | none => exact .inr ⟨hl, rfl⟩
    | some value => exact .inl ht
  · cases ht : f.text? name with
    | none => exact absurd ⟨ht, hl⟩ h
    | some value => exact .inl ht

theorem not_gives (h : f.Unreadable name) (default value : Text) : ¬f.Gives name default value := by
  obtain ⟨htext, hl⟩ := h
  rintro (ht | ⟨hlacks, -⟩)
  · rw [htext] at ht
    cases ht
  · exact hl hlacks

theorem status_withField (r : Response) (name value : Text) : (r.withField name value).status = r.status := by
  rw [Response.withField]
  split
  · rfl
  · rfl

end Http

namespace Server

variable {v : Server} {g : Gate} {r : Http.Request} {s : Run} {l : List Action} {x : Http.Response}

theorem status_identified (p : Principal) : (identified p).status = 200 := by
  rw [identified]
  split
  · simp only [Http.status_withField]
    rfl
  · simp only [Http.status_withField]
    rfl

def Grants (v : Server) (r : Http.Request) : Prop :=
  ∃ method uri, r.fields.Gives "x-forwarded-method" r.method method ∧
    r.fields.Gives "x-forwarded-uri" ['/'] uri ∧ v.guard.decide method uri ≠ .authenticate

/-- What a request gets that comes in the given state, when its answer is known after the actions. -/
inductive Answers (v : Server) (s : Run) (r : Http.Request) : List Action → Http.Response → Prop
  | known (x : Http.Response) (h : v.plan s.gate r = .answer x) : Answers v s r [] (x.sentFor r.method)
  | judged (token : Text) (l : List Action) (verdict : Verdict) (h : v.plan s.gate r = .authenticate token)
      (hv : s.Ends v.rules (.authenticate token) l (.verdict verdict)) :
      Answers v s r l ((conclude verdict).sentFor r.method)

/-- What the server does is to give one of the answers, or to refuse when it gets no verdict. -/
theorem serve_answers (v : Server) (r : Http.Request) {p : Rehearsal} (hp : p.rules = v.rules) :
    (∃ l, v.Answers p.run r l (v.serve r p).2) ∨ (v.serve r p).2 = unauthorized.sentFor r.method := by
  rw [serve]
  cases hplan : v.plan p.run.gate r with
  | answer x => exact .inl ⟨[], .known x hplan⟩
  | authenticate token =>
      dsimp only
      split
      · rename_i p' verdict hask
        obtain ⟨l, hends⟩ := Rehearsal.ask_ends (congrArg Prod.snd hask)
        rw [hp] at hends
        exact .inl ⟨l, .judged token l verdict hplan hends⟩
      · exact .inr rfl

def Authenticates (v : Server) (s : Run) (r : Http.Request) (l : List Action) : Prop :=
  ∃ token p, bearerToken? (r.fields.text? "authorization") = some token ∧
    v.plan s.gate r = .authenticate token ∧ s.Ends v.rules (.authenticate token) l (.verdict (.ok p))

/-- Nothing but such a decision or a good token gets the request a 200. -/
def FailsClosed (v : Server) (r : Http.Request) : Prop :=
  ∀ s l x, v.Answers s r l x → x.status = 200 → v.Grants r ∨ v.Authenticates s r l

structure IsCheck (r : Http.Request) : Prop where
  method : r.method = "GET"
  path : Http.pathOf r.target = "/auth"

theorem IsCheck.plan (h : IsCheck r) (v : Server) (g : Gate) : v.plan g r = v.forwardAuth (.ofRequest r) := by
  simp only [Server.plan, h.method, h.path, ne_eq, not_true_eq_false, if_false, if_true]

theorem IsCheck.sentFor (h : IsCheck r) (x : Http.Response) : x.sentFor r.method = x := by
  have hne : "GET".toList ≠ "HEAD".toList := by decide
  rw [Http.Response.sentFor, h.method, if_neg hne]

theorem forwardAuth_allowed {f : Forwarded} (h : v.guard.decide f.method f.uri ≠ .authenticate) :
    v.forwardAuth f = .answer allowed := by
  rw [forwardAuth]
  cases hd : v.guard.decide f.method f.uri with
  | readable | free => rfl
  | authenticate => exact absurd hd h

theorem forwardAuth_challenged {f : Forwarded} (h : v.guard.decide f.method f.uri = .authenticate) :
    (∃ token, bearerToken? f.authorization = some token ∧ v.forwardAuth f = .authenticate token) ∨
      v.forwardAuth f = .answer unauthorized := by
  simp only [forwardAuth, h]
  cases hb : bearerToken? f.authorization with
  | none => exact .inr rfl
  | some token => exact .inl ⟨token, rfl, rfl⟩

theorem IsCheck.challenged (hr : IsCheck r)
    (h : v.guard.decide (Forwarded.ofRequest r).method (Forwarded.ofRequest r).uri = .authenticate)
    (ha : v.Answers s r l x) : x = unauthorized ∨ x.status = 200 ∧ v.Authenticates s r l := by
  have hplan := hr.plan v s.gate
  rcases forwardAuth_challenged h with ⟨token, htoken, hf⟩ | hf
  · rw [hf] at hplan
    cases ha with
    | known x hx => cases hplan.symm.trans hx
    | judged token' l verdict ht hv =>
        obtain rfl := Plan.authenticate.inj (hplan.symm.trans ht)
        rw [hr.sentFor]
        cases verdict with
        | error f => exact .inl rfl
        | ok p => exact .inr ⟨status_identified p, token, p, htoken, hplan, hv⟩
  · rw [hf] at hplan
    cases ha with
    | known x hx =>
        obtain rfl := Plan.answer.inj (hplan.symm.trans hx)
        exact .inl (hr.sentFor _)
    | judged token l verdict ht hv => cases hplan.symm.trans ht

theorem IsCheck.allowed (hr : IsCheck r)
    (h : v.guard.decide (Forwarded.ofRequest r).method (Forwarded.ofRequest r).uri ≠ .authenticate) (s : Run) :
    v.plan s.gate r = .answer Server.allowed ∧ ∀ l x, v.Answers s r l x → x = Server.allowed := by
  have hplan := (hr.plan v s.gate).trans (forwardAuth_allowed h)
  refine ⟨hplan, fun l x ha => ?_⟩
  cases ha with
  | known x hx =>
      obtain rfl := Plan.answer.inj (hplan.symm.trans hx)
      exact hr.sentFor _
  | judged token l verdict ht hv => cases hplan.symm.trans ht

/-- A check is answered with 200 or with 401. It fails closed exactly when both forwarded fields can be read
or are absent, or when what stands in for those that cannot be read happens to need a token. -/
theorem failsClosed_iff (hr : IsCheck r) (v : Server) :
    (∀ s l x, v.Answers s r l x → x.status = 200 ∨ x = unauthorized) ∧
      (v.FailsClosed r ↔
        ¬r.fields.Unreadable "x-forwarded-method" ∧ ¬r.fields.Unreadable "x-forwarded-uri" ∨
          v.guard.decide (Forwarded.ofRequest r).method (Forwarded.ofRequest r).uri = .authenticate) := by
  by_cases hd : v.guard.decide (Forwarded.ofRequest r).method (Forwarded.ofRequest r).uri = .authenticate
  · refine ⟨fun s l x ha => (hr.challenged hd ha).symm.imp_left And.left, ?_⟩
    refine iff_of_true ?_ (.inr hd)
    intro s l x ha hx
    rcases hr.challenged hd ha with rfl | ⟨-, h⟩
    · cases hx
    · exact .inr h
  · refine ⟨fun s l x ha => .inl ((hr.allowed hd s).2 l x ha ▸ rfl), ?_⟩
    constructor
    · intro h
      have hplan := (hr.allowed hd { epoch := 0 }).1
      rcases h _ _ _ (.known Server.allowed hplan) (by rw [hr.sentFor]; rfl) with
        ⟨method, uri, hmethod, huri, -⟩ | ⟨token, p, -, hauth, -⟩
      · exact .inl ⟨fun hu => Http.not_gives hu _ _ hmethod, fun hu => Http.not_gives hu _ _ huri⟩
      · cases hplan.symm.trans hauth
    · rintro (⟨hmethod, huri⟩ | h)
      · intro s l x ha hx
        exact .inl ⟨_, _, Http.gives_getD hmethod _, Http.gives_getD huri _, hd⟩
      · exact absurd h hd

def fileServer : Server where
  rules := ⟨.ofSettings { issuers := [⟨"https://idp.example/abc", some "t", false, []⟩] }, .ofSettings {}, {},
    ⟨"p", "s"⟩⟩
  guard := .ofPatterns ["/file/v1/**"] []
  showsMetrics := true
  address := ⟨"127.0.0.1", 0⟩

def checkOf (uri : Text) : Http.Request :=
  ⟨"GET", "/auth", [("x-forwarded-uri", Utf8.encode uri)]⟩

theorem isCheck_checkOf (uri : Text) : IsCheck (checkOf uri) where
  method := rfl
  path := by
    have hpath : Http.pathOf "/auth" = "/auth".toList := by decide
    exact hpath

theorem failsClosed_readable : fileServer.FailsClosed (checkOf "/file/v1/a") := by
  have hmethod : ¬(checkOf "/file/v1/a").fields.Unreadable "x-forwarded-method" := by decide +kernel
  have huri : ¬(checkOf "/file/v1/a").fields.Unreadable "x-forwarded-uri" := by decide +kernel
  exact (failsClosed_iff (isCheck_checkOf _) fileServer).2.mpr (.inl ⟨hmethod, huri⟩)

/-- A path below the root that is not all ASCII is taken for the root of the host, and anyone may pass. -/
theorem not_failsClosed_unreadable :
    fileServer.plan {} (checkOf "/file/v1/é") = .answer allowed ∧ ¬fileServer.FailsClosed (checkOf "/file/v1/é") := by
  have hplan : fileServer.plan {} (checkOf "/file/v1/é") = .answer allowed := by decide +kernel
  refine ⟨hplan, fun h => ?_⟩
  rcases h { epoch := 0 } [] _ (.known allowed hplan) rfl with ⟨method, uri, -, huri, -⟩ | ⟨token, p, htoken, -⟩
  · have hunreadable : (checkOf "/file/v1/é").fields.Unreadable "x-forwarded-uri" := by decide +kernel
    exact Http.not_gives hunreadable _ _ huri
  · have hnone : bearerToken? ((checkOf "/file/v1/é").fields.text? "authorization") = none := by decide +kernel
    cases hnone.symm.trans htoken

end Server

end BearerGate
