import GameServer.AuthHistory
import GameServer.Handlers
import GameServer.Metrics
import GameServer.Passwords

namespace GameServer

open Program AuthHistory

namespace AuthHistory

/-- A login with a password whose derived key is that of the registered one
returned the session, and later, with no logout of its token in between, the
token was found valid in time. -/
def Entitles (kdf : Pbkdf2) (ttl : Int) (h : AuthHistory) (session : AuthSession) : Prop :=
  ∃ pre mid post username password registered ip salt random t now,
    h = (pre ++ (.login username password ip random t, .loggedIn (.ok session)) :: mid) ++
      (.validateToken session.token now, .validated (some session)) :: post ∧
    (∀ answer, (.logout session.token, answer) ∉ mid) ∧ now ≤ Clock.addSeconds t ttl ∧
    (.registerUser username registered salt, .registered (.ok session.user)) ∈ pre ∧
    kdf password salt.toList = kdf registered salt.toList

theorem Entitles.mono {kdf : Pbkdf2} {ttl : Int} {h : AuthHistory} {session : AuthSession}
    (he : Entitles kdf ttl h session) (more : AuthHistory) : Entitles kdf ttl (h ++ more) session := by
  obtain ⟨pre, mid, post, username, password, registered, ip, salt, random, t, now, rfl, hrest⟩ := he
  exact ⟨pre, mid, post ++ more, username, password, registered, ip, salt, random, t, now,
    by rw [List.append_assoc, List.cons_append], hrest⟩

/-- Every session was opened with a password whose derived key is that of the one
its user had registered with. -/
def Verified (kdf : Pbkdf2) (h : AuthHistory) : Prop :=
  ∀ pre post username password ip random now session,
    h = pre ++ (.login username password ip random now, .loggedIn (.ok session)) :: post →
      ∃ registered salt, (.registerUser username registered salt, .registered (.ok session.user)) ∈ pre ∧
        kdf password salt.toList = kdf registered salt.toList

end AuthHistory

namespace AuthService

open AuthHistory

variable {kdf : Pbkdf2}

theorem authenticate_verified {s : AuthService} {username password ip : String} {now : Int} {record : UserRecord}
    (h : (authenticate kdf s username password ip now).2 = .ok record) :
    s.users.lookup username = some record ∧ verifyPassword kdf password record = true := by
  simp only [authenticate] at h
  split at h
  next => cases h
  next =>
    split at h
    next => cases h
    next hlookup =>
      split at h
      next hverify =>
        cases h
        exact ⟨hlookup, hverify⟩
      next => cases h

theorem login_verified {s : AuthService} {username password ip : String} {random : Vector UInt8 32} {now : Int}
    {session : AuthSession} (h : (login kdf s username password ip random now).2 = .ok session) :
    ∃ record, s.users.lookup username = some record ∧ verifyPassword kdf password record = true ∧
      session.user = ⟨record.id, record.username⟩ := by
  rw [login] at h
  split at h
  next => cases h
  next t record heq =>
    cases h
    obtain ⟨hlookup, hverify⟩ := authenticate_verified (congrArg Prod.snd heq)
    exact ⟨record, hlookup, hverify, rfl⟩

theorem Recorded.verified {s : AuthService} {h : AuthHistory} (hr : Recorded kdf s.users h) (hv : Verified kdf h)
    (call : AuthCall) : Verified kdf (h ++ [(call, (s.call kdf call).2)]) := by
  intro pre post username password ip random now session hsplit
  rcases List.eq_nil_or_concat post with rfl | ⟨post, last, rfl⟩
  · obtain ⟨rfl, hlast⟩ := List.append_inj' hsplit rfl
    obtain ⟨rfl, hanswer⟩ := Prod.mk.inj (List.cons.inj hlast).1
    have hlogin : (login kdf s username password ip random now).2 = .ok session := by
      simpa [AuthService.call] using hanswer
    obtain ⟨record, hl, hverify, huser⟩ := login_verified hlogin
    obtain ⟨registered, salt, hmem, heq⟩ := hr.known username record hl
    refine ⟨registered, salt, ?_, ?_⟩
    · have hname : record.username = username := by rw [heq]; rfl
      rw [huser, hname]
      exact hmem
    · rw [heq] at hverify
      exact (verifyPassword_iff password registered record.id username salt).mp hverify
  · rw [List.concat_eq_append] at hsplit
    have hfront := (List.append_inj' (hsplit.trans (List.append_assoc pre (_ :: post) [last]).symm) rfl).1
    exact hv pre post username password ip random now session hfront

end AuthService

namespace AuthRun

open AuthHistory

variable {kdf : Pbkdf2} {config : AuthConfig}

theorem verified_reachable {s : AuthRun} {h : AuthHistory} (hr : (historyMachine kdf config).Reachable (s, h)) :
    Verified kdf h := by
  have hboth : AuthService.Recorded kdf s.service.users h ∧ Verified kdf h := by
    refine hr.recorded_induction (P := fun s h => AuthService.Recorded kdf s.service.users h ∧ Verified kdf h) ?_ ?_
    · refine ⟨⟨by simp [machine], by simp⟩, ?_⟩
      intro pre post username password ip random now session hsplit
      simp at hsplit
    · rintro s h call t ⟨hrecorded, hverified⟩ ht
      refine ⟨?_, hrecorded.verified hverified call⟩
      change step kdf s call = some t at ht
      rw [step] at ht
      split at ht
      next => cases ht
      next =>
        cases ht
        exact AuthService.recorded_call hrecorded call
  exact hboth.2

theorem entitles_of_valid {s : AuthRun} {h : AuthHistory} (hr : (historyMachine kdf config).Reachable (s, h))
    {token : Bytes} {now : Int} {session : AuthSession}
    (hvalid : (s.service.validateToken token now).2 = some session) :
    session.token = token ∧
      Entitles kdf config.tokenTtl (h ++ [(.validateToken token now, .validated (some session))]) session := by
  have hi := inv_reachable hr
  have hfound : s.service.sessions.lookup token = some session ∧ now ≤ session.expiresAt := by
    rw [AuthService.validateToken] at hvalid
    split at hvalid
    next => cases hvalid
    next other hsome =>
      split at hvalid
      next => cases hvalid
      next htime =>
        cases hvalid
        exact ⟨hsome, Int.not_lt.mp htime⟩
  obtain ⟨htoken, username, t, hlogin⟩ := hi.sessions.known token session hfound.1
  obtain ⟨hexpires, -, -⟩ := hi.sessions.logins session username t hlogin
  obtain ⟨pre, mid, password, ip, random, rfl, hmid⟩ := hlogin
  obtain ⟨registered, salt, hmem, hkdf⟩ := verified_reachable hr pre mid username password ip random t session rfl
  refine ⟨htoken, pre, mid, [], username, password, registered, ip, salt, random, t, now, by rw [htoken], hmid, ?_,
    hmem, hkdf⟩
  rw [← hexpires]
  exact hfound.2

end AuthRun

structure Draw where
  now : Int := 0
  salt : Vector UInt8 16 := Vector.replicate 16 0
  random : Vector UInt8 32 := Vector.replicate 32 0

def HttpCall.authCall (draw : Draw) : HttpCall → Option AuthCall
  | .registerUser username password => some (.registerUser username password draw.salt)
  | .login username password ip => some (.login username password ip draw.random draw.now)
  | .logout token => some (.logout token)
  | .validateToken token => some (.validateToken token draw.now)
  | _ => none

/-- The requests of all threads over one AuthService. Its calls read the clock in
the order in which they take the mutex, and draw tokens that are all distinct. -/
structure Gateway where
  http : HttpServer := {}
  auth : AuthRun × AuthHistory

namespace Gateway

inductive Action
  | arrive (session : HttpSession)
  /-- The next call of a request. The answers are those of the other services. -/
  | call (k : Nat) (draw : Draw) (answer : (op : HttpCall) → op.Answer)

def answered (kdf : Pbkdf2) (g : Gateway) (draw : Draw) (answer : (op : HttpCall) → op.Answer) :
    (op : HttpCall) → op.Answer
  | .registerUser username password => (AuthService.registerUser kdf g.auth.1.service username password draw.salt).2
  | .login username password ip =>
    (AuthService.login kdf g.auth.1.service username password ip draw.random draw.now).2
  | .logout token => (g.auth.1.service.logout token).2
  | .validateToken token => (g.auth.1.service.validateToken token draw.now).2
  | op => answer op

def serve (kdf : Pbkdf2) (config : AuthConfig) (g : Gateway) (draw : Draw) (op : HttpCall) :
    Option (AuthRun × AuthHistory) :=
  match op.authCall draw with
  | none => some g.auth
  | some made => (AuthRun.historyMachine kdf config).step g.auth made

def step (kdf : Pbkdf2) (config : AuthConfig) (parse : Bytes → Option Json) (g : Gateway) : Action → Option Gateway
  | .arrive session => (HttpServer.step parse g.http (.arrive session)).map fun http => { g with http := http }
  | .call k draw answer => do
    let task ← g.http.tasks[k]?
    let op ← task.nextCall
    let auth ← g.serve kdf config draw op
    let http ← HttpServer.step parse g.http (.call k (g.answered kdf draw answer))
    pure ⟨http, auth⟩

def machine (kdf : Pbkdf2) (config : AuthConfig) (parse : Bytes → Option Json) : Machine Gateway Action where
  init := { auth := (AuthRun.historyMachine kdf config).init }
  step := step kdf config parse

variable {kdf : Pbkdf2} {config : AuthConfig} {parse : Bytes → Option Json} {g t : Gateway}

theorem step_cases {a : Action} (h : step kdf config parse g a = some t) :
    (∃ session, t.auth = g.auth ∧ t.http.tasks = g.http.tasks ++ [{ session, rest := session.onRead parse }]) ∨
    ∃ (k : Nat) (draw : Draw) (answer : (op : HttpCall) → op.Answer) (task next : HttpTask) (op : HttpCall),
      a = .call k draw answer ∧ g.http.tasks[k]? = some task ∧ g.serve kdf config draw op = some t.auth ∧
      t.http.tasks = g.http.tasks.set k next ∧ next.session = task.session ∧
      next.calls = task.calls ++ [⟨op, g.http.answered (g.answered kdf draw answer) op⟩] ∧
      (∀ p : Handler Unit, p.After task.calls task.rest → p.After next.calls next.rest) := by
  cases a with
  | arrive session =>
      cases h
      exact Or.inl ⟨session, rfl, rfl⟩
  | call k draw answer =>
      simp only [step, Option.bind_eq_bind, Option.bind_eq_some_iff] at h
      obtain ⟨task, htask, op, hop, auth, hauth, http, hhttp, hpure⟩ := h
      cases hpure
      rcases HttpServer.step_cases hhttp with ⟨session, ha, -⟩ | ⟨j, other, known, call, next, ha, hknown, hrest, rfl⟩
      · cases ha
      · cases ha
        cases htask.symm.trans hknown
        have hcall : call = op := by
          rw [HttpTask.nextCall, hrest] at hop
          exact Option.some.inj hop
        subst hcall
        refine Or.inr ⟨k, draw, answer, task, _, call, rfl, htask, hauth, rfl, rfl, rfl, ?_⟩
        intro p hp
        exact (hrest ▸ hp).call _

theorem serve_cases {draw : Draw} {op : HttpCall} {auth : AuthRun × AuthHistory}
    (h : g.serve kdf config draw op = some auth) :
    (op.authCall draw = none ∧ auth = g.auth) ∨ ∃ call s, op.authCall draw = some call ∧
      AuthRun.step kdf g.auth.1 call = some s ∧
      auth = (s, g.auth.2 ++ [(call, (g.auth.1.service.call kdf call).2)]) := by
  rw [serve] at h
  split at h
  next hnone =>
    cases h
    exact Or.inl ⟨hnone, rfl⟩
  next call hcall =>
    obtain ⟨s, hs, rfl⟩ := Option.map_eq_some_iff.mp h
    exact Or.inr ⟨call, s, hcall, hs, rfl⟩

theorem serve_reachable (hr : (AuthRun.historyMachine kdf config).Reachable g.auth) {draw : Draw} {op : HttpCall}
    {auth : AuthRun × AuthHistory} (h : g.serve kdf config draw op = some auth) :
    (AuthRun.historyMachine kdf config).Reachable auth ∧ ∃ more, auth.2 = g.auth.2 ++ more := by
  rcases serve_cases h with ⟨-, rfl⟩ | ⟨call, s, -, hs, rfl⟩
  · exact ⟨hr, [], (List.append_nil _).symm⟩
  · refine ⟨hr.step (a := call) ?_, _, rfl⟩
    exact Option.map_eq_some_iff.mpr ⟨s, hs, rfl⟩

theorem serve_valid (hr : (AuthRun.historyMachine kdf config).Reachable g.auth) {draw : Draw}
    {answer : (op : HttpCall) → op.Answer} {op : HttpCall} {auth : AuthRun × AuthHistory}
    (h : g.serve kdf config draw op = some auth) {token : Bytes} {session : AuthSession}
    (hcall : (⟨.validateToken token, some session⟩ : Sigma HttpCall.Answer) =
      ⟨op, g.http.answered (g.answered kdf draw answer) op⟩) :
    session.token = token ∧ Entitles kdf config.tokenTtl auth.2 session := by
  obtain rfl : op = .validateToken token := (congrArg Sigma.fst hcall).symm
  have hvalid : (g.auth.1.service.validateToken token draw.now).2 = some session :=
    (eq_of_heq (Sigma.mk.inj hcall).2).symm
  obtain ⟨htoken, hentitles⟩ := AuthRun.entitles_of_valid hr hvalid
  refine ⟨htoken, ?_⟩
  rcases serve_cases h with ⟨hnone, -⟩ | ⟨call, s, hsome, -, rfl⟩
  · cases hnone
  · cases hsome
    have hanswer : (g.auth.1.service.call kdf (.validateToken token draw.now)).2 = .validated (some session) :=
      congrArg AuthAnswer.validated hvalid
    rw [hanswer]
    exact hentitles

theorem introduced_concat {calls : List (Sigma HttpCall.Answer)} {call : Sigma HttpCall.Answer} {user : AuthUser}
    (h : Introduced (calls ++ [call]) user) : Introduced calls user ∨ Introduced [call] user := by
  rcases h with ⟨username, password, hmem⟩ | ⟨username, password, ip, session, hmem, rfl⟩
  · rcases List.mem_append.mp hmem with hmem | hmem
    · exact Or.inl (Or.inl ⟨username, password, hmem⟩)
    · exact Or.inr (Or.inl ⟨username, password, hmem⟩)
  · rcases List.mem_append.mp hmem with hmem | hmem
    · exact Or.inl (Or.inr ⟨username, password, ip, session, hmem, rfl⟩)
    · exact Or.inr (Or.inr ⟨username, password, ip, session, hmem, rfl⟩)

theorem serve_introduced (hr : (AuthRun.historyMachine kdf config).Reachable g.auth) {draw : Draw}
    {answer : (op : HttpCall) → op.Answer} {op : HttpCall} {auth : AuthRun × AuthHistory}
    (h : g.serve kdf config draw op = some auth) {user : AuthUser}
    (hcall : Introduced [⟨op, g.http.answered (g.answered kdf draw answer) op⟩] user) :
    Registered auth.2 user.username user := by
  rcases hcall with ⟨username, password, hmem⟩ | ⟨username, password, ip, session, hmem, rfl⟩
  · have hlast := List.mem_singleton.mp hmem
    obtain rfl : op = .registerUser username password := (congrArg Sigma.fst hlast).symm
    have hanswer : (AuthService.registerUser kdf g.auth.1.service username password draw.salt).2 = .ok user :=
      (eq_of_heq (Sigma.mk.inj hlast).2).symm
    rcases serve_cases h with ⟨hnone, -⟩ | ⟨call, s, hsome, -, rfl⟩
    · cases hnone
    · cases hsome
      have hnamed : user.username = username := by
        rcases AuthService.registerUser_cases kdf g.auth.1.service username password draw.salt with
          ⟨e, heq⟩ | ⟨-, id, next, heq⟩
        · rw [heq] at hanswer
          cases hanswer
        · rw [heq] at hanswer
          cases hanswer
          rfl
      have hrecorded : (g.auth.1.service.call kdf (.registerUser username password draw.salt)).2 =
          .registered (.ok user) := congrArg AuthAnswer.registered hanswer
      rw [hrecorded, hnamed]
      exact ⟨password, draw.salt, by simp⟩
  · have hlast := List.mem_singleton.mp hmem
    obtain rfl : op = .login username password ip := (congrArg Sigma.fst hlast).symm
    have hanswer : (AuthService.login kdf g.auth.1.service username password ip draw.random draw.now).2 =
        .ok session := (eq_of_heq (Sigma.mk.inj hlast).2).symm
    obtain ⟨record, hlookup, -, huser⟩ := AuthService.login_verified hanswer
    obtain ⟨hname, ⟨p, salt, hreg⟩, -⟩ := (AuthRun.inv_reachable hr).users.known username record hlookup
    obtain ⟨-, more, hmore⟩ := serve_reachable hr h
    rw [huser, hmore, hname]
    exact ⟨p, salt, List.mem_append_left _ hreg⟩

structure Inv (kdf : Pbkdf2) (config : AuthConfig) (parse : Bytes → Option Json) (g : Gateway) : Prop where
  auth : (AuthRun.historyMachine kdf config).Reachable g.auth
  after : ∀ task ∈ g.http.tasks, (task.session.onRead parse).After task.calls task.rest
  valid : ∀ task ∈ g.http.tasks, ∀ token session, ⟨.validateToken token, some session⟩ ∈ task.calls →
    session.token = token ∧ Entitles kdf config.tokenTtl g.auth.2 session
  introduced : ∀ task ∈ g.http.tasks, ∀ user, Introduced task.calls user → Registered g.auth.2 user.username user

theorem inv_step {a : Action} (hi : Inv kdf config parse g) (h : step kdf config parse g a = some t) :
    Inv kdf config parse t := by
  rcases step_cases h with ⟨session, hauth, htasks⟩ |
    ⟨k, draw, answer, task, next, op, -, htask, hserve, htasks, hsession, hcalls, hafter⟩
  · refine ⟨hauth ▸ hi.auth, ?_, ?_, ?_⟩
    · intro task htask
      rw [htasks] at htask
      rcases List.mem_append.mp htask with htask | htask
      · exact hi.after task htask
      · rw [List.mem_singleton.mp htask]
        exact .start
    · intro task htask token session hcall
      rw [htasks] at htask
      rw [hauth]
      rcases List.mem_append.mp htask with htask | htask
      · exact hi.valid task htask token session hcall
      · rw [List.mem_singleton.mp htask] at hcall
        cases hcall
    · intro task htask user hintro
      rw [htasks] at htask
      rw [hauth]
      rcases List.mem_append.mp htask with htask | htask
      · exact hi.introduced task htask user hintro
      · rw [List.mem_singleton.mp htask] at hintro
        rcases hintro with ⟨_, _, hmem⟩ | ⟨_, _, _, _, hmem, -⟩ <;> cases hmem
  · have hmem : task ∈ g.http.tasks := List.mem_of_getElem? htask
    obtain ⟨hreach, more, hmore⟩ := serve_reachable hi.auth hserve
    refine ⟨hreach, ?_, ?_, ?_⟩
    · intro other hother
      rw [htasks] at hother
      rcases List.mem_or_eq_of_mem_set hother with hother | rfl
      · exact hi.after other hother
      · rw [hsession]
        exact hafter _ (hi.after task hmem)
    · have hold : ∀ other ∈ g.http.tasks, ∀ token session, ⟨.validateToken token, some session⟩ ∈ other.calls →
          session.token = token ∧ Entitles kdf config.tokenTtl t.auth.2 session := by
        intro other hother token session hcall
        obtain ⟨htoken, hentitles⟩ := hi.valid other hother token session hcall
        rw [hmore]
        exact ⟨htoken, hentitles.mono more⟩
      intro other hother token session hcall
      rw [htasks] at hother
      rcases List.mem_or_eq_of_mem_set hother with hother | rfl
      · exact hold other hother token session hcall
      · rw [hcalls] at hcall
        rcases List.mem_append.mp hcall with hcall | hcall
        · exact hold task hmem token session hcall
        · exact serve_valid hi.auth hserve (List.mem_singleton.mp hcall)
    · have hold : ∀ other ∈ g.http.tasks, ∀ user, Introduced other.calls user →
          Registered t.auth.2 user.username user := by
        intro other hother user hintro
        obtain ⟨password, salt, hreg⟩ := hi.introduced other hother user hintro
        rw [hmore]
        exact ⟨password, salt, List.mem_append_left _ hreg⟩
      intro other hother user hintro
      rw [htasks] at hother
      rcases List.mem_or_eq_of_mem_set hother with hother | rfl
      · exact hold other hother user hintro
      · rw [hcalls] at hintro
        rcases introduced_concat hintro with hintro | hintro
        · exact hold task hmem user hintro
        · exact serve_introduced hi.auth hserve hintro

theorem inv_reachable (hr : (machine kdf config parse).Reachable g) : Inv kdf config parse g := by
  refine hr.induction ⟨.init, by simp [machine], by simp [machine], by simp [machine]⟩ ?_
  intro s a t _ hi ht
  exact inv_step hi ht

theorem Inv.next_authorized (hi : Inv kdf config parse g) {task : HttpTask} (htask : task ∈ g.http.tasks)
    {op : HttpCall} (hop : task.nextCall = some op) : Authorizes task.session.req task.calls op := by
  have hrest := ((HttpSession.onRead_keeps parse task.session).after (hi.after task htask)).1
  rw [HttpTask.nextCall] at hop
  split at hop
  next call next hcall =>
    cases hop
    rw [hcall] at hrest
    exact hrest.1.1
  next => cases hop

theorem Inv.entitled (hi : Inv kdf config parse g) {task : HttpTask} (htask : task ∈ g.http.tasks)
    {pre post : List (Sigma HttpCall.Answer)} {call : Sigma HttpCall.Answer}
    (hcalls : task.calls = pre ++ call :: post) (hacts : call.1.Acts) :
    ∃ session, ⟨.validateToken task.session.req.bearer, some session⟩ ∈ pre ∧ call.1.For session ∧
      session.token = task.session.req.bearer ∧ Entitles kdf config.tokenTtl g.auth.2 session := by
  have hauthorizes : Authorizes task.session.req pre call.1 :=
    (((HttpSession.onRead_keeps parse task.session).after (hi.after task htask)).2 pre call post hcalls).1
  obtain ⟨session, hvalid, hfor⟩ := hauthorizes.of_acts hacts
  refine ⟨session, hvalid, hfor, hi.valid task htask _ _ ?_⟩
  rw [hcalls]
  exact List.mem_append_left _ hvalid

/-- Whatever requests run side by side, one that acts for a user does it for
the user of the token in its own header, which it has found valid before. The
token is from a login with a password that passes for the registered one, and
there was no logout since. -/
theorem authorized (hr : (machine kdf config parse).Reachable g) {task : HttpTask} (htask : task ∈ g.http.tasks)
    {pre post : List (Sigma HttpCall.Answer)} {call : Sigma HttpCall.Answer}
    (hcalls : task.calls = pre ++ call :: post) (hacts : call.1.Acts) :
    ∃ session, ⟨.validateToken task.session.req.bearer, some session⟩ ∈ pre ∧ call.1.For session ∧
      session.token = task.session.req.bearer ∧ Entitles kdf config.tokenTtl g.auth.2 session :=
  (inv_reachable hr).entitled htask hcalls hacts

def kimToken : Bytes := bytesToHex (List.replicate 32 7)

def kimRequest (target : String) (authorization : Option Bytes) : HttpSession :=
  ⟨⟨10, []⟩, { method := .post, target := bytes target, authorization := authorization }, "", 0⟩

def kimCancels : List Action :=
  let turns (k n : Nat) : List Action :=
    List.replicate n (.call k { random := Vector.replicate 32 7 } HttpCall.refusal)
  .arrive (kimRequest "/api/auth/register" none) :: turns 0 4 ++
    .arrive (kimRequest "/api/auth/login" none) :: turns 1 5 ++
    .arrive (kimRequest "/api/queue/cancel" (some (bytes "Bearer " ++ kimToken))) :: turns 2 5

def kimBody : Json := Json.ofMembers [("username", .string "kim"), ("password", .string "pw")]

theorem authorized_kim : ∃ g session, (machine AuthService.lengthKdf {} fun _ => some kimBody).Reachable g ∧
    session.token = kimToken ∧ session.user.userId = 1 ∧ Entitles AuthService.lengthKdf 3600 g.auth.2 session := by
  have hlast : (((machine AuthService.lengthKdf {} fun _ => some kimBody).run kimCancels).bind fun g =>
      g.http.tasks[2]?.map fun task => (task.calls.drop 4, task.session.req.bearer)) =
      some ([⟨.cancel 1, .error ⟨"", ""⟩⟩], kimToken) := by
    rfl
  obtain ⟨g, hg, htask⟩ := Option.bind_eq_some_iff.mp hlast
  obtain ⟨task, htask, hcalls⟩ := Option.map_eq_some_iff.mp htask
  obtain ⟨hcalls, hbearer⟩ := Prod.mk.inj hcalls
  have hsplit : task.calls = task.calls.take 4 ++ ⟨.cancel 1, .error ⟨"", ""⟩⟩ :: [] := by
    rw [← hcalls, List.take_append_drop]
  obtain ⟨session, -, hfor, htoken, hentitles⟩ :=
    authorized (.of_run hg) (List.mem_of_getElem? htask) hsplit trivial
  exact ⟨g, session, .of_run hg, htoken.trans hbearer, hfor.symm, hentitles⟩

end Gateway

end GameServer
