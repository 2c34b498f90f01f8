import GameServer.Identity
import GameServer.Lockstep

namespace GameServer

open Program

def HttpCall.password : HttpCall → Option String
  | .registerUser _ password | .login _ password _ => some password
  | _ => none

inductive HttpCall.Linked (R : String → String → Prop) : HttpCall → HttpCall → Prop
  | same {op : HttpCall} (h : op.password = none) : Linked R op op
  | registerUser (username : String) {p q : String} (h : R p q) :
      Linked R (.registerUser username p) (.registerUser username q)
  | login (username ip : String) {p q : String} (h : R p q) : Linked R (.login username p ip) (.login username q ip)

/-- Passwords that take the place of each other: none of them is empty, and two
have the same key on one side exactly when they have it on the other. -/
structure Interchange (kdf : Pbkdf2) (R : String → String → Prop) : Prop where
  empty : ∀ p q, R p q → (p = "" ↔ q = "")
  keys : ∀ p q p' q', R p q → R p' q' → ∀ salt : Vector UInt8 16,
    kdf p salt.toList = kdf p' salt.toList ↔ kdf q salt.toList = kdf q' salt.toList

inductive SameBody (R : String → String → Prop) : Option Json → Option Json → Prop
  | same {body : Option Json} (h : ∀ p, body.bind (·.find "password") ≠ some (.string p)) : SameBody R body body
  | password {a b : Json} {p q : String} (h : R p q) (ha : a.find "password" = some (.string p))
      (hb : b.find "password" = some (.string q)) (hother : ∀ key, key ≠ "password" → a.find key = b.find key) :
      SameBody R (some a) (some b)

namespace HttpSession

variable {parse : Bytes → Option Json} {R : String → String → Prop} {s t : HttpSession}

def SameBut (parse : Bytes → Option Json) (R : String → String → Prop) (s t : HttpSession) : Prop :=
  ∃ body, t = { s with req := { s.req with body } } ∧ SameBody R (parse s.req.body) (parse body)

theorem password_sending (call : HttpCall) (h : call.Sending) : call.password = none := by
  cases call <;> first | rfl | exact h.elim

section Silent

theorem ask_silent {call : HttpCall} (h : call.password = none) : (ask call).Silent HttpCall.password :=
  (Quiet.request h).silent

theorem succeed_spares (status : Nat) (data : Json) : (s.succeed status data).Silent HttpCall.password :=
  succeed_silent password_sending status data

theorem fail_spares (status : Nat) (e : Error) : (s.fail status e).Silent HttpCall.password :=
  fail_silent password_sending status e

theorem authenticated_spares {handle : AuthSession → Handler Unit}
    (h : ∀ session, (handle session).Silent HttpCall.password) :
    (s.authenticated handle).Silent HttpCall.password := by
  apply Silent.bind (s.extractAuthSession_quiet fun _ => rfl).silent
  intro session
  cases session with
  | none => exact fail_spares _ _
  | some session => exact h session

theorem snapshot_spares (activeSessions queueLength : UInt64) :
    (Observability.snapshot activeSessions queueLength).Silent HttpCall.password :=
  Silent.bind (ask_silent rfl) fun _ => Silent.bind (ask_silent rfl) fun _ =>
    Silent.bind (ask_silent rfl) fun _ => (Quiet.pure _).silent

theorem metrics_spares : s.metrics.Silent HttpCall.password :=
  Silent.bind (ask_silent rfl) fun _ => Silent.bind (ask_silent rfl) fun _ =>
    Silent.bind (snapshot_spares _ _) fun _ => succeed_spares _ _

theorem opsStatus_spares : s.opsStatus.Silent HttpCall.password := by
  simp only [opsStatus]
  split
  · exact fail_spares _ _
  · exact Silent.bind (ask_silent rfl) fun _ => Silent.bind (ask_silent rfl) fun _ =>
      Silent.bind (snapshot_spares _ _) fun _ => succeed_spares _ _

theorem leaderboard_spares (query : Bytes) : (s.leaderboard query).Silent HttpCall.password := by
  simp only [leaderboard]
  split
  · exact fail_spares _ _
  · exact Silent.bind (ask_silent rfl) fun _ => succeed_spares _ _

theorem profile_spares : s.profile.Silent HttpCall.password :=
  authenticated_spares fun _ => Silent.bind (ask_silent rfl) fun _ => succeed_spares _ _

theorem logout_spares : s.logout.Silent HttpCall.password :=
  authenticated_spares fun _ => Silent.bind (ask_silent rfl) fun _ => succeed_spares _ _

theorem queueCancel_spares : s.queueCancel.Silent HttpCall.password := by
  apply authenticated_spares
  intro session
  apply Silent.bind (ask_silent rfl)
  intro canceled
  cases canceled with
  | error e => exact fail_spares _ _
  | ok _ => exact succeed_spares _ _

theorem denyUpgrade_spares : s.denyUpgrade.Silent HttpCall.password :=
  Silent.bind (Silent.bind (ask_silent rfl) fun _ => (Quiet.pure _).silent) fun _ =>
    sendResponse_silent password_sending _

end Silent

abbrev Follows {α β : Type} (R : String → String → Prop) (r : α → β → Prop) (p : Handler α) (q : Handler β) : Prop :=
  p.InStep (HttpCall.Linked R) r q

theorem follows_of_silent {α : Type} {p : Handler α} (h : p.Silent HttpCall.password) : Follows R (· = ·) p p :=
  .of_silent h HttpCall.refusal fun _ hop => .same hop

theorem follows_ite {c : Prop} [Decidable c] {p p' q q' : Handler Unit} (h : Follows R (· = ·) p q)
    (h' : Follows R (· = ·) p' q') : Follows R (· = ·) (if c then p else p') (if c then q else q') := by
  split
  next => exact h
  next => exact h'

theorem parseBody_follows (h : s.SameBut parse R t) :
    Follows R (fun a b => SameBody R (some a) (some b)) (s.parseBody parse) (t.parseBody parse) := by
  obtain ⟨body, rfl, h⟩ := h
  simp only [parseBody]
  generalize parse s.req.body = x at h
  generalize parse body = y at h
  cases h with
  | same h =>
      cases x with
      | none => exact .throw _
      | some a => exact .pure (.same h)
  | password h ha hb hother => exact .pure (.password h ha hb hother)

theorem credentials_follows {a b : Json} (h : SameBody R (some a) (some b)) :
    Follows R (fun x y => x.1 = y.1 ∧ R x.2 y.2) (credentials a) (credentials b) := by
  cases h with
  | same h =>
      rw [credentials]
      split
      next username password _ hpassword =>
        have hno : ¬ (username.isString = true ∧ password.isString = true) := by
          rintro ⟨-, hstring⟩
          cases password with
          | string p => exact h p hpassword
          | _ => cases hstring
        rw [if_neg hno]
        exact .throw _
      next => exact .throw _
  | password h ha hb hother =>
      rw [credentials, credentials, ha, hb, hother "username" (by decide)]
      cases b.find "username" with
      | none => exact .throw _
      | some username =>
          dsimp only
          by_cases hstring : username.isString = true
          · rw [if_pos ⟨hstring, rfl⟩, if_pos ⟨hstring, rfl⟩]
            exact InStep.pure (And.intro rfl h)
          · rw [if_neg (hstring ·.1), if_neg (hstring ·.1)]
            exact .throw _

theorem find_eq {a b : Json} (h : SameBody R (some a) (some b)) {key : String} (hkey : key ≠ "password") :
    a.find key = b.find key := by
  cases h with
  | same => rfl
  | password _ _ _ hother => exact hother key hkey

theorem register_follows (h : s.SameBut parse R t) : Follows R (· = ·) (s.register parse) (t.register parse) := by
  obtain ⟨body, rfl, -⟩ := id h
  refine InStep.tryCatch ?_ fun _ => follows_of_silent (fail_spares 400 _)
  apply InStep.bind (parseBody_follows h)
  intro a b hab
  apply InStep.bind (credentials_follows hab)
  rintro ⟨username, p⟩ ⟨_, q⟩ ⟨rfl, hpq⟩
  apply InStep.request_bind (.registerUser username hpq)
  intro user _ hsame
  cases hsame
  apply follows_of_silent
  cases user with
  | error e => exact fail_spares _ _
  | ok user => exact Silent.bind (ask_silent rfl) fun _ => succeed_spares _ _

theorem login_follows (h : s.SameBut parse R t) : Follows R (· = ·) (s.login parse) (t.login parse) := by
  obtain ⟨body, rfl, -⟩ := id h
  refine InStep.tryCatch ?_ fun _ => follows_of_silent (fail_spares 400 _)
  apply InStep.bind (parseBody_follows h)
  intro a b hab
  apply InStep.bind (credentials_follows hab)
  rintro ⟨username, p⟩ ⟨_, q⟩ ⟨rfl, hpq⟩
  apply InStep.request_bind (.same rfl)
  intro ip _ hsame
  cases hsame
  apply InStep.request_bind (.login username ip hpq)
  intro session _ hsame
  cases hsame
  apply follows_of_silent
  cases session with
  | error e => exact fail_spares _ _
  | ok session =>
      apply Silent.bind (ask_silent rfl)
      intro _
      apply Silent.bind
      · rw [dumped]
        split
        · exact (Quiet.pure _).silent
        · exact .throw _
      · intro token
        exact succeed_spares _ _

theorem authenticated_follows {handle handle' : AuthSession → Handler Unit}
    (h : ∀ session, Follows R (· = ·) (handle session) (handle' session)) :
    Follows R (· = ·) (s.authenticated handle) (s.authenticated handle') := by
  apply InStep.bind (follows_of_silent (s.extractAuthSession_quiet fun _ => rfl).silent)
  rintro session _ rfl
  cases session with
  | none => exact follows_of_silent (fail_spares _ _)
  | some session => exact h session

theorem joinMode_spares (body : Json) : (joinMode body).Silent HttpCall.password := by
  rw [joinMode]
  split
  · exact .throw _
  · split
    · split
      · exact .throw _
      · exact (Quiet.pure _).silent
    · exact .throw _

theorem joinTimeout_spares (body : Json) : (s.joinTimeout body).Silent HttpCall.password := by
  rw [joinTimeout]
  split
  · exact (Quiet.pure _).silent
  · split
    · exact (Quiet.pure _).silent
    · exact .throw _

theorem queueJoin_follows (h : s.SameBut parse R t) : Follows R (· = ·) (s.queueJoin parse) (t.queueJoin parse) := by
  obtain ⟨body, rfl, -⟩ := id h
  apply authenticated_follows
  intro session
  refine InStep.tryCatch ?_ fun _ => follows_of_silent (fail_spares 400 _)
  apply InStep.bind (parseBody_follows h)
  intro a b hab
  have hmode : joinMode a = joinMode b := by
    rw [joinMode, joinMode, find_eq hab (by decide)]
  have htimeout : s.joinTimeout a = s.joinTimeout b := by
    rw [joinTimeout, joinTimeout, find_eq hab (by decide)]
  rw [hmode, htimeout]
  apply follows_of_silent
  apply Silent.bind (joinMode_spares b)
  intro mode
  apply Silent.bind (joinTimeout_spares b)
  intro timeout
  apply Silent.bind (ask_silent rfl)
  intro joined
  cases joined with
  | error e => exact fail_spares _ _
  | ok _ => exact Silent.bind (ask_silent rfl) fun _ => succeed_spares _ _

theorem route_follows (h : s.SameBut parse R t) : Follows R (· = ·) (s.route parse) (t.route parse) := by
  obtain ⟨body, rfl, -⟩ := id h
  have hnotFound := follows_of_silent (R := R) (fail_spares (s := s) 404 ⟨"not_found", "지원되지 않는 경로입니다"⟩)
  rw [route, route]
  dsimp only
  cases s.req.method with
  | other => exact hnotFound
  | get =>
      apply follows_ite (follows_of_silent (succeed_spares _ _))
      apply follows_ite (follows_of_silent metrics_spares)
      apply follows_ite (follows_of_silent opsStatus_spares)
      apply follows_ite (follows_of_silent (leaderboard_spares _))
      exact follows_ite (follows_of_silent profile_spares) hnotFound
  | post =>
      apply follows_ite (register_follows h)
      apply follows_ite (login_follows h)
      apply follows_ite (follows_of_silent logout_spares)
      apply follows_ite (queueJoin_follows h)
      exact follows_ite (follows_of_silent queueCancel_spares) hnotFound

theorem onRead_follows (h : s.SameBut parse R t) : Follows R (· = ·) (s.onRead parse) (t.onRead parse) := by
  obtain ⟨body, rfl, hbody⟩ := h
  apply follows_ite
  · apply InStep.bind (follows_of_silent (s.extractAuthSession_quiet fun _ => rfl).silent)
    rintro session _ rfl
    apply follows_of_silent
    cases session with
    | none => exact denyUpgrade_spares
    | some session => exact ask_silent rfl
  · apply InStep.request_bind (.same rfl)
    intro requestStart _ hsame
    cases hsame
    apply InStep.request_bind (.same rfl)
    intro traceId _ hsame
    cases hsame
    apply InStep.request_bind (.same rfl)
    intro counted _ hsame
    cases hsame
    exact route_follows (s := s.started requestStart traceId) ⟨body, rfl, hbody⟩

end HttpSession

inductive UserRecord.SameBut (kdf : Pbkdf2) (R : String → String → Prop) : UserRecord → UserRecord → Prop
  | newRecord (id : Int) (username : String) (salt : Vector UInt8 16) {p q : String} (h : R p q) :
      SameBut kdf R (AuthService.newRecord kdf id username p salt) (AuthService.newRecord kdf id username q salt)

inductive AuthCall.Linked (R : String → String → Prop) : AuthCall → AuthCall → Prop
  | registerUser (username : String) (salt : Vector UInt8 16) {p q : String} (h : R p q) :
      Linked R (.registerUser username p salt) (.registerUser username q salt)
  | login (username ip : String) (random : Vector UInt8 32) (now : Int) {p q : String} (h : R p q) :
      Linked R (.login username p ip random now) (.login username q ip random now)
  | logout (token : Bytes) : Linked R (.logout token) (.logout token)
  | validateToken (token : Bytes) (now : Int) : Linked R (.validateToken token now) (.validateToken token now)

namespace AuthService

structure SameBut (kdf : Pbkdf2) (R : String → String → Prop) (s t : AuthService) : Prop where
  config : s.config = t.config
  rateLimiter : s.rateLimiter = t.rateLimiter
  nextUserId : s.nextUserId = t.nextUserId
  sessions : s.sessions = t.sessions
  users : ∀ username, Option.Rel (UserRecord.SameBut kdf R) (s.users.lookup username) (t.users.lookup username)

variable {kdf : Pbkdf2} {R : String → String → Prop} {s t : AuthService} {p q : String}

theorem SameBut.mem_users (h : s.SameBut kdf R t) (username : String) : username ∈ s.users ↔ username ∈ t.users := by
  rw [← AList.lookup_isSome, ← AList.lookup_isSome, isSome_eq_of_rel (h.users username)]

theorem verifyPassword_eq (hi : Interchange kdf R) (hpq : R p q) {a b : UserRecord} (hab : a.SameBut kdf R b) :
    verifyPassword kdf p a = verifyPassword kdf q b := by
  cases hab with
  | newRecord id username salt h =>
      rw [Bool.eq_iff_iff, verifyPassword_iff, verifyPassword_iff]
      exact hi.keys _ _ _ _ hpq h salt

theorem registerUser_sameBut (hi : Interchange kdf R) (h : s.SameBut kdf R t) (hpq : R p q) (username : String)
    (salt : Vector UInt8 16) :
    (registerUser kdf s username p salt).1.SameBut kdf R (registerUser kdf t username q salt).1 ∧
      (registerUser kdf s username p salt).2 = (registerUser kdf t username q salt).2 := by
  simp only [registerUser, hi.empty p q hpq, h.mem_users, h.nextUserId]
  split
  next => exact ⟨h, rfl⟩
  next =>
    split
    next => exact ⟨h, rfl⟩
    next =>
      refine ⟨⟨h.config, h.rateLimiter, rfl, h.sessions, ?_⟩, rfl⟩
      intro other
      rw [Table.lookup_insert_eq, Table.lookup_insert_eq]
      split
      next => exact .some (.newRecord t.nextUserId username salt hpq)
      next => exact h.users other

theorem authenticate_sameBut (hi : Interchange kdf R) (h : s.SameBut kdf R t) (hpq : R p q) (username ip : String)
    (now : Int) :
    (authenticate kdf s username p ip now).1.SameBut kdf R (authenticate kdf t username q ip now).1 ∧
      ((∃ e, (authenticate kdf s username p ip now).2 = .error e ∧
          (authenticate kdf t username q ip now).2 = .error e) ∨
        ∃ a b, (authenticate kdf s username p ip now).2 = .ok a ∧ (authenticate kdf t username q ip now).2 = .ok b ∧
          a.SameBut kdf R b) := by
  have hsame : SameBut kdf R { s with rateLimiter := (t.rateLimiter.allow ip now).1 }
      { t with rateLimiter := (t.rateLimiter.allow ip now).1 } :=
    ⟨h.config, rfl, h.nextUserId, h.sessions, h.users⟩
  simp only [authenticate, h.rateLimiter]
  split
  next => exact ⟨hsame, Or.inl ⟨_, rfl, rfl⟩⟩
  next =>
    have hlookup := h.users username
    generalize s.users.lookup username = x at hlookup
    generalize t.users.lookup username = y at hlookup
    cases hlookup with
    | none => exact ⟨hsame, Or.inl ⟨_, rfl, rfl⟩⟩
    | some hab =>
        dsimp only
        rw [verifyPassword_eq hi hpq hab]
        split
        next => exact ⟨hsame, Or.inr ⟨_, _, rfl, rfl, hab⟩⟩
        next => exact ⟨hsame, Or.inl ⟨_, rfl, rfl⟩⟩

theorem login_sameBut (hi : Interchange kdf R) (h : s.SameBut kdf R t) (hpq : R p q) (username ip : String)
    (random : Vector UInt8 32) (now : Int) :
    (login kdf s username p ip random now).1.SameBut kdf R (login kdf t username q ip random now).1 ∧
      (login kdf s username p ip random now).2 = (login kdf t username q ip random now).2 := by
  have hboth := authenticate_sameBut hi h hpq username ip now
  rw [login, login]
  generalize authenticate kdf s username p ip now = x at hboth
  generalize authenticate kdf t username q ip now = y at hboth
  obtain ⟨s, x⟩ := x
  obtain ⟨t, y⟩ := y
  have hst : s.SameBut kdf R t := hboth.1
  rcases hboth.2 with ⟨e, rfl, rfl⟩ | ⟨a, b, rfl, rfl, hab⟩
  · exact ⟨hst, rfl⟩
  · cases hab with
    | @newRecord id username salt p' q' _ =>
        have hsession : (s.cleanupExpired now).newSession (newRecord kdf id username p' salt) random now =
            (t.cleanupExpired now).newSession (newRecord kdf id username q' salt) random now := by
          simp only [newSession, cleanupExpired, newRecord, hst.config]
        dsimp only
        rw [hsession]
        refine ⟨⟨hst.config, hst.rateLimiter, hst.nextUserId, ?_, hst.users⟩, rfl⟩
        simp only [openSession, cleanupExpired, hst.sessions]

theorem call_sameBut (hi : Interchange kdf R) (h : s.SameBut kdf R t) {c d : AuthCall} (hcd : c.Linked R d) :
    (s.call kdf c).1.SameBut kdf R (t.call kdf d).1 ∧ (s.call kdf c).2 = (t.call kdf d).2 := by
  cases hcd with
  | registerUser username salt hpq =>
      obtain ⟨hsame, hanswer⟩ := registerUser_sameBut hi h hpq username salt
      exact ⟨hsame, congrArg AuthAnswer.registered hanswer⟩
  | login username ip random now hpq =>
      obtain ⟨hsame, hanswer⟩ := login_sameBut hi h hpq username ip random now
      exact ⟨hsame, congrArg AuthAnswer.loggedIn hanswer⟩
  | logout token =>
      simp only [AuthService.call, logout, h.sessions]
      exact ⟨⟨h.config, h.rateLimiter, h.nextUserId, rfl, h.users⟩, rfl⟩
  | validateToken token now =>
      simp only [AuthService.call, validateToken, h.sessions]
      split
      next => exact ⟨h, rfl⟩
      next =>
        split
        next => exact ⟨⟨h.config, h.rateLimiter, h.nextUserId, rfl, h.users⟩, rfl⟩
        next => exact ⟨h, rfl⟩

end AuthService

structure AuthRun.SameBut (kdf : Pbkdf2) (R : String → String → Prop) (s t : AuthRun) : Prop where
  service : s.service.SameBut kdf R t.service
  clock : s.clock = t.clock
  generated : s.generated = t.generated

theorem AuthRun.step_sameBut {kdf : Pbkdf2} {R : String → String → Prop} (hi : Interchange kdf R) {s t : AuthRun}
    (h : s.SameBut kdf R t) {c d : AuthCall} (hcd : c.Linked R d) :
    Option.Rel (AuthRun.SameBut kdf R) (AuthRun.step kdf s c) (AuthRun.step kdf t d) := by
  obtain ⟨hservice, hanswer⟩ := AuthService.call_sameBut hi h.service hcd
  have hnow : c.now = d.now := by cases hcd <;> rfl
  simp only [step, hnow, hanswer, h.clock, h.generated]
  split
  next => exact .none
  next => exact .some ⟨hservice, rfl, rfl⟩

def SameCall (R : String → String → Prop) (c d : Sigma HttpCall.Answer) : Prop := c.1.Linked R d.1 ∧ HEq c.2 d.2

structure HttpTask.SameBut (R : String → String → Prop) (s t : HttpTask) : Prop where
  calls : List.Forall₂ (SameCall R) s.calls t.calls
  rest : s.rest.InStep (HttpCall.Linked R) (· = ·) t.rest
  reading : s.reading = t.reading

structure HttpServer.SameBut (R : String → String → Prop) (s t : HttpServer) : Prop where
  requestTotal : s.requestTotal = t.requestTotal
  requestErrors : s.requestErrors = t.requestErrors
  counted : s.counted = t.counted
  failed : s.failed = t.failed
  tasks : List.Forall₂ (HttpTask.SameBut R) s.tasks t.tasks

def AnswersAlike (R : String → String → Prop) (answer answer' : (op : HttpCall) → op.Answer) : Prop :=
  ∀ op op', op.Linked R op' → HEq (answer op) (answer' op')

section Requests

variable {R : String → String → Prop}

theorem HttpTask.SameBut.nextCall {s t : HttpTask} (h : s.SameBut R t) :
    Option.Rel (HttpCall.Linked R) s.nextCall t.nextCall := by
  have hrest := h.rest
  simp only [HttpTask.nextCall]
  generalize s.rest = p at hrest
  generalize t.rest = q at hrest
  cases hrest with
  | pure | throw => exact .none
  | call hop => exact .some hop

theorem HttpTask.SameBut.accepted {s t : HttpTask} (h : s.SameBut R t) : s.accepted = t.accepted := by
  simp only [HttpTask.accepted]
  have hcalls := h.calls
  generalize s.calls = cs at hcalls
  generalize t.calls = ds at hcalls
  induction hcalls with
  | nil => rfl
  | @cons c d _ _ hcd _ ih =>
      obtain ⟨op, a⟩ := c
      obtain ⟨op', a'⟩ := d
      obtain ⟨hlink, -⟩ := hcd
      rw [List.findSome?_cons, List.findSome?_cons, ih]
      cases hlink <;> rfl

theorem HttpServer.SameBut.answered {s t : HttpServer} (h : s.SameBut R t)
    {answer answer' : (op : HttpCall) → op.Answer} (ha : AnswersAlike R answer answer') :
    AnswersAlike R (s.answered answer) (t.answered answer') := by
  intro op op' hlink
  cases hlink with
  | same hop =>
      cases op with
      | loadRequestTotal => exact heq_of_eq h.requestTotal
      | loadRequestErrors => exact heq_of_eq h.requestErrors
      | registerUser | login => cases hop
      | _ => exact ha _ _ (.same rfl)
  | registerUser username hpq => exact ha _ _ (.registerUser username hpq)
  | login username ip hpq => exact ha _ _ (.login username ip hpq)

theorem HttpServer.SameBut.count {s t : HttpServer} (h : s.SameBut R t) (k : Nat) {op op' : HttpCall}
    (hlink : op.Linked R op') : (s.count k op).SameBut R (t.count k op') := by
  cases hlink with
  | same =>
      cases op with
      | incrementRequest =>
          exact ⟨congrArg (· + 1) h.requestTotal, h.requestErrors, congrArg (· ++ [k]) h.counted, h.failed, h.tasks⟩
      | incrementError =>
          exact ⟨h.requestTotal, congrArg (· + 1) h.requestErrors, h.counted, congrArg (· ++ [k]) h.failed, h.tasks⟩
      | _ => exact h
  | registerUser | login => exact h

theorem HttpServer.SameBut.readTotal {s t : HttpServer} (h : s.SameBut R t) {op op' : HttpCall}
    (hlink : op.Linked R op') : s.readTotal op = t.readTotal op' := by
  cases hlink with
  | same =>
      cases op with
      | loadRequestTotal => simp only [HttpServer.readTotal, h.requestTotal, h.counted]
      | _ => rfl
  | registerUser | login => rfl

variable {parse : Bytes → Option Json}

theorem HttpServer.SameBut.arrive {s t : HttpServer} (h : s.SameBut R t) {session session' : HttpSession}
    (hs : session.SameBut parse R session') :
    Option.Rel (HttpServer.SameBut R) (HttpServer.step parse s (.arrive session))
      (HttpServer.step parse t (.arrive session')) :=
  .some ⟨h.requestTotal, h.requestErrors, h.counted, h.failed,
    List.rel_append h.tasks (.cons ⟨.nil, HttpSession.onRead_follows hs, rfl⟩ .nil)⟩

theorem HttpServer.SameBut.call {s t : HttpServer} (h : s.SameBut R t) (k : Nat)
    {answer answer' : (op : HttpCall) → op.Answer} (ha : AnswersAlike R answer answer') :
    Option.Rel (HttpServer.SameBut R) (HttpServer.step parse s (.call k answer))
      (HttpServer.step parse t (.call k answer')) := by
  apply rel_bind (rel_getElem? h.tasks k)
  rintro ⟨session, calls, rest, reading⟩ ⟨session', calls', rest', reading'⟩ ⟨hcalls, hrest, -⟩
  cases hrest with
  | pure | throw => exact .none
  | call hlink hnext =>
      have hanswer := h.answered ha _ _ hlink
      have hcount := h.count k hlink
      refine .some ⟨hcount.requestTotal, hcount.requestErrors, hcount.counted, hcount.failed, ?_⟩
      apply forall₂_set h.tasks
      exact ⟨List.rel_append hcalls (.cons ⟨hlink, hanswer⟩ .nil), hnext _ _ hanswer, h.readTotal hlink⟩

end Requests

structure Gateway.SameBut (kdf : Pbkdf2) (R : String → String → Prop) (g g' : Gateway) : Prop where
  http : g.http.SameBut R g'.http
  auth : g.auth.1.SameBut kdf R g'.auth.1

namespace Gateway

variable {kdf : Pbkdf2} {config : AuthConfig} {parse : Bytes → Option Json} {R : String → String → Prop}
  {g g' : Gateway}

theorem answered_alike (hi : Interchange kdf R) (h : g.SameBut kdf R g') (draw : Draw)
    {answer answer' : (op : HttpCall) → op.Answer}
    (ha : ∀ op, op.password = none → answer op = answer' op) :
    AnswersAlike R (g.answered kdf draw answer) (g'.answered kdf draw answer') := by
  intro op op' hlink
  cases hlink with
  | same hop =>
      cases op with
      | registerUser | login => cases hop
      | logout token =>
          have hsame := (AuthService.call_sameBut hi h.auth.service (.logout token)).2
          exact heq_of_eq (AuthAnswer.loggedOut.inj hsame)
      | validateToken token =>
          have hsame := (AuthService.call_sameBut hi h.auth.service (.validateToken token draw.now)).2
          exact heq_of_eq (AuthAnswer.validated.inj hsame)
      | _ => exact heq_of_eq (ha _ hop)
  | registerUser username hpq =>
      exact heq_of_eq (AuthService.registerUser_sameBut hi h.auth.service hpq username draw.salt).2
  | login username ip hpq =>
      exact heq_of_eq (AuthService.login_sameBut hi h.auth.service hpq username ip draw.random draw.now).2

theorem serve_sameBut (hi : Interchange kdf R) (h : g.SameBut kdf R g') (draw : Draw) {op op' : HttpCall}
    (hlink : op.Linked R op') :
    Option.Rel (fun a b => a.1.SameBut kdf R b.1) (g.serve kdf config draw op) (g'.serve kdf config draw op') := by
  have hmade : Option.Rel (AuthCall.Linked R) (op.authCall draw) (op'.authCall draw) := by
    cases hlink with
    | same hop =>
        cases op with
        | registerUser | login => cases hop
        | logout token => exact .some (.logout token)
        | validateToken token => exact .some (.validateToken token draw.now)
        | _ => exact .none
    | registerUser username hpq => exact .some (.registerUser username draw.salt hpq)
    | login username ip hpq => exact .some (.login username ip draw.random draw.now hpq)
  rw [serve, serve]
  generalize op.authCall draw = x at hmade
  generalize op'.authCall draw = y at hmade
  cases hmade with
  | none => exact .some h.auth
  | some hcd => exact rel_map (AuthRun.step_sameBut hi h.auth hcd) fun a b hab => hab

theorem arrive_sameBut (h : g.SameBut kdf R g') {session session' : HttpSession}
    (hs : session.SameBut parse R session') :
    Option.Rel (Gateway.SameBut kdf R) (Gateway.step kdf config parse g (.arrive session))
      (Gateway.step kdf config parse g' (.arrive session')) := by
  rw [step, step]
  apply rel_map (h.http.arrive hs)
  intro http http' hhttp
  exact ⟨hhttp, h.auth⟩

theorem call_sameBut (hi : Interchange kdf R) (h : g.SameBut kdf R g') (k : Nat) (draw : Draw)
    {answer answer' : (op : HttpCall) → op.Answer} (ha : ∀ op, op.password = none → answer op = answer' op) :
    Option.Rel (Gateway.SameBut kdf R) (Gateway.step kdf config parse g (.call k draw answer))
      (Gateway.step kdf config parse g' (.call k draw answer')) := by
  apply rel_bind (rel_getElem? h.http.tasks k)
  intro task task' htask
  apply rel_bind htask.nextCall
  intro op op' hlink
  apply rel_bind (serve_sameBut hi h draw hlink)
  intro auth auth' hauth
  apply rel_bind (h.http.call k (answered_alike hi h draw ha))
  intro http http' hhttp
  exact .some ⟨hhttp, hauth⟩

end Gateway

def shown : Sigma HttpCall.Answer → Sigma HttpCall.Answer
  | ⟨.registerUser username _, user⟩ => ⟨.registerUser username "", user⟩
  | ⟨.login username _ ip, session⟩ => ⟨.login username "" ip, session⟩
  | made => made

theorem SameCall.shown {R : String → String → Prop} {c d : Sigma HttpCall.Answer} (h : SameCall R c d) :
    shown c = shown d := by
  obtain ⟨op, a⟩ := c
  obtain ⟨op', a'⟩ := d
  obtain ⟨hlink, ha⟩ := h
  cases hlink with
  | same =>
      cases ha
      rfl
  | registerUser | login =>
      cases ha
      rfl

namespace Service

structure SameBut (kdf : Pbkdf2) (R : String → String → Prop) (s t : Service) : Prop where
  gateway : s.gateway.SameBut kdf R t.gateway
  game : s.game = t.game
  joining : s.joining = t.joining

inductive Action.SameBut (parse : Bytes → Option Json) (R : String → String → Prop) : Action → Action → Prop
  | arrive {session session' : HttpSession} (h : session.SameBut parse R session') :
      SameBut parse R (.arrive session) (.arrive session')
  | same {a : Action} (h : ∀ session, a ≠ .arrive session) : SameBut parse R a a

/-- What can be seen of the server: the calls of all requests, so their
responses and their lines of the log too, and the state but for the users. -/
structure Observed where
  calls : List (List (Sigma HttpCall.Answer))
  requestTotal : UInt64
  requestErrors : UInt64
  sessions : Table Bytes AuthSession
  rateLimiter : RateLimiter
  game : Server × InputHistory

def observed (s : Service) : Observed where
  calls := s.gateway.http.tasks.map fun task => task.calls.map shown
  requestTotal := s.gateway.http.requestTotal
  requestErrors := s.gateway.http.requestErrors
  sessions := s.gateway.auth.1.service.sessions
  rateLimiter := s.gateway.auth.1.service.rateLimiter
  game := s.game

variable {D : Type} {kdf : Pbkdf2} {config : AuthConfig} {parse : Bytes → Option Json} {cfg : Config D}
  {R : String → String → Prop} {s t : Service}

theorem SameBut.answered (h : s.SameBut kdf R t) : s.answered = t.answered := by
  funext answer op
  cases op <;> simp only [Service.answered, h.game]

theorem SameBut.joinAnswer (h : s.SameBut kdf R t) : s.joinAnswer = t.joinAnswer := by
  funext op
  cases op <;> simp only [Service.joinAnswer, h.answered]

theorem SameBut.perform (h : s.SameBut kdf R t) {op op' : HttpCall} (hlink : op.Linked R op') :
    s.perform cfg op = t.perform cfg op' := by
  cases hlink <;> simp only [Service.perform, HttpCall.gameAction, h.game]

theorem SameBut.goesOn (h : s.SameBut kdf R t) {op op' : HttpCall} (hlink : op.Linked R op') :
    s.goesOn op = t.goesOn op' := by
  cases hlink with
  | same => cases op <;> simp only [Service.goesOn, h.game]
  | registerUser | login => rfl

theorem step_sameBut (hi : Interchange kdf R) (h : s.SameBut kdf R t) {a b : Action} (hab : a.SameBut parse R b) :
    Option.Rel (Service.SameBut kdf R) (step kdf config parse cfg s a) (step kdf config parse cfg t b) := by
  cases hab with
  | arrive hs =>
      rw [step, step]
      apply rel_map (Gateway.arrive_sameBut h.gateway hs)
      intro g g' hg
      exact ⟨hg, h.game, h.joining⟩
  | same ha =>
      cases a with
      | arrive session => exact absurd rfl (ha session)
      | call k draw answer =>
          simp only [step, h.joining, h.answered]
          split
          next => exact .none
          next =>
            apply rel_bind (rel_getElem? h.gateway.http.tasks k)
            intro task task' htask
            apply rel_bind htask.nextCall
            intro op op' hlink
            rw [h.perform hlink, h.goesOn hlink]
            cases t.perform cfg op' with
            | none => exact .none
            | some game =>
                simp only [Option.bind_eq_bind, Option.bind_some]
                split
                next => exact .some ⟨h.gateway, rfl, rfl⟩
                next =>
                  apply rel_bind (Gateway.call_sameBut hi h.gateway k draw fun _ _ => rfl)
                  intro g g' hg
                  exact .some ⟨hg, rfl, rfl⟩
      | joined now =>
          simp only [step, h.joining, h.joinAnswer, h.game]
          cases t.joining with
          | none => exact .none
          | some k =>
              simp only [Option.bind_eq_bind, Option.bind_some]
              cases (Server.historyMachine cfg).step t.game (.joinPush now) with
              | none => exact .none
              | some game =>
                  apply rel_bind (Gateway.call_sameBut hi h.gateway k {} fun _ _ => rfl)
                  intro g g' hg
                  exact .some ⟨hg, rfl, rfl⟩
      | frame k input =>
          simp only [step, h.game]
          apply rel_bind (rel_getElem? h.gateway.http.tasks k)
          intro task task' htask
          rw [htask.accepted]
          cases task'.accepted with
          | none => exact .none
          | some session =>
              simp only [Option.bind_eq_bind, Option.bind_some]
              cases (Server.historyMachine cfg).step t.game (.submitLookup { input with userId := session.user.userId })
                with
              | none => exact .none
              | some game => exact .some ⟨h.gateway, rfl, h.joining⟩
      | internal a =>
          simp only [step, h.game]
          split
          next =>
            cases (Server.historyMachine cfg).step t.game a with
            | none => exact .none
            | some game => exact .some ⟨h.gateway, rfl, h.joining⟩
          next => exact .none

theorem SameBut.observed (h : s.SameBut kdf R t) : s.observed = t.observed := by
  have hcalls : (s.gateway.http.tasks.map fun task => task.calls.map shown) =
      t.gateway.http.tasks.map fun task => task.calls.map shown :=
    map_eq_of_forall₂ h.gateway.http.tasks fun _ _ htask => map_eq_of_forall₂ htask.calls fun _ _ hcall => hcall.shown
  simp only [Service.observed, hcalls, h.gateway.http.requestTotal, h.gateway.http.requestErrors,
    h.gateway.auth.service.sessions, h.gateway.auth.service.rateLimiter, h.game]

/-- Nothing that can be seen of a run depends on the passwords, but for which of
them are empty and which of them have the same key: with others in their place
every request gets the same responses and leaves the same lines in the log, and
the tokens, the ratings and the games are the same. -/
theorem passwords_secret (hi : Interchange kdf R) {as bs : List Action}
    (h : List.Forall₂ (Action.SameBut parse R) as bs) :
    ((machine kdf config parse cfg).run as).map observed = ((machine kdf config parse cfg).run bs).map observed := by
  have hinit : (machine kdf config parse cfg).init.SameBut kdf R (machine kdf config parse cfg).init := by
    refine ⟨⟨⟨rfl, rfl, rfl, rfl, .nil⟩, ⟨⟨rfl, rfl, rfl, rfl, ?_⟩, rfl, rfl⟩⟩, rfl, rfl⟩
    exact fun username => .none
  exact map_eq_of_rel (Machine.run_rel hinit (fun s t a b hst hab => step_sameBut hi hst hab) h)
    fun s t hst => hst.observed

def kimBody (password : String) : Json := Json.ofMembers [("username", .string "kim"), ("password", .string password)]

theorem find_kimBody (password key : String) : (kimBody password).find key =
    if key = "password" then some (.string password) else if key = "username" then some (.string "kim") else none := by
  simp [kimBody, Json.ofMembers, Json.set, Json.find, Json.lookup_insertMember]

def fourBodies : Bytes → Option Json
  | [1] => some (kimBody "pw")
  | [2] => some (kimBody "guess")
  | [3] => some (kimBody "secret")
  | [4] => some (kimBody "x")
  | _ => none

def guessPlay (right wrong : UInt8) : List Action :=
  .arrive (twoRequest "/api/auth/register" [right] none false) :: turns 0 9 0 ++
    .arrive (twoRequest "/api/auth/login" [wrong] none false) :: turns 1 10 0 ++
    .arrive (twoRequest "/api/auth/login" [right] none false) :: turns 2 10 7

inductive Swapped : String → String → Prop
  | right : Swapped "pw" "secret"
  | wrong : Swapped "guess" "x"

theorem passwords_secret_of_guess :
    ((machine AuthService.lengthKdf {} fourBodies (Server.evenConfig 1)).run (guessPlay 1 2)).map observed =
      ((machine AuthService.lengthKdf {} fourBodies (Server.evenConfig 1)).run (guessPlay 3 4)).map observed ∧
    (((machine AuthService.lengthKdf {} fourBodies (Server.evenConfig 1)).run (guessPlay 1 2)).map fun s =>
      s.gateway.http.tasks.map fun task => task.calls.filterMap fun call => (responseOf call.1).map (·.status)) =
      some [[201], [401], [200]] := by
  have hi : Interchange AuthService.lengthKdf Swapped := by
    constructor
    · rintro p q (_ | _) <;> decide
    · rintro p q p' q' (_ | _) (_ | _) salt <;> simp only [AuthService.lengthKdf] <;> decide
  have hturns : ∀ k n random,
      List.Forall₂ (Action.SameBut fourBodies Swapped) (turns k n random) (turns k n random) := by
    intro k n random
    apply List.forall₂_same.mpr
    intro a ha
    rw [List.eq_of_mem_replicate ha]
    exact .same (by simp)
  have harrive : ∀ target a b p q, Swapped p q → fourBodies [a] = some (kimBody p) →
      fourBodies [b] = some (kimBody q) → Action.SameBut fourBodies Swapped
        (.arrive (twoRequest target [a] none false)) (.arrive (twoRequest target [b] none false)) := by
    intro target a b p q hpq ha hb
    refine .arrive ⟨[b], rfl, ?_⟩
    change SameBody Swapped (fourBodies [a]) (fourBodies [b])
    rw [ha, hb]
    refine .password hpq (find_kimBody p _) (find_kimBody q _) ?_
    intro key hkey
    rw [find_kimBody, find_kimBody, if_neg hkey, if_neg hkey]
  refine ⟨passwords_secret hi ?_, rfl⟩
  exact List.rel_append (List.rel_append (.cons (harrive _ _ _ _ _ .right rfl rfl) (hturns 0 9 0))
    (.cons (harrive _ _ _ _ _ .wrong rfl rfl) (hturns 1 10 0)))
    (.cons (harrive _ _ _ _ _ .right rfl rfl) (hturns 2 10 7))

end Service

end GameServer
