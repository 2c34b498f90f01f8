import GameServer.Auth

namespace GameServer

/-- The service with the last clock reading and the tokens generated so far. -/
structure AuthRun where
  service : AuthService
  clock : Option Int := none
  generated : List Bytes := []

def AuthCall.now : AuthCall → Option Int
  | .login _ _ _ _ now | .validateToken _ now => some now
  | .registerUser _ _ _ | .logout _ => none

def AuthAnswer.token : AuthAnswer → Option Bytes
  | .loggedIn (.ok session) => some session.token
  | _ => none

abbrev AuthHistory := List (AuthCall × AuthAnswer)

namespace AuthHistory

/-- The session of a login under the username, with no logout since. -/
def LoggedIn (h : AuthHistory) (session : AuthSession) (username : String) (now : Int) : Prop :=
  ∃ pre post password ip random,
    h = pre ++ (.login username password ip random now, .loggedIn (.ok session)) :: post ∧
      ∀ answer, (.logout session.token, answer) ∉ post

def Registered (h : AuthHistory) (username : String) (user : AuthUser) : Prop :=
  ∃ password salt, (.registerUser username password salt, .registered (.ok user)) ∈ h

theorem loggedIn_concat (h : AuthHistory) (call : AuthCall) (answer : AuthAnswer) (session : AuthSession)
    (username : String) (now : Int) :
    LoggedIn (h ++ [(call, answer)]) session username now ↔
      (LoggedIn h session username now ∧ call ≠ .logout session.token) ∨
        ((∃ password ip random, call = .login username password ip random now) ∧
          answer = .loggedIn (.ok session)) := by
  constructor
  · rintro ⟨pre, post, password, ip, random, hsplit, hpost⟩
    rcases List.eq_nil_or_concat post with rfl | ⟨post, last, rfl⟩
    · obtain ⟨-, hlast⟩ := List.append_inj' hsplit rfl
      obtain ⟨rfl, rfl⟩ := Prod.mk.inj (List.cons.inj hlast).1
      exact Or.inr ⟨⟨password, ip, random, rfl⟩, rfl⟩
    · rw [List.concat_eq_append] at hsplit hpost
      obtain ⟨hfront, hlast⟩ := List.append_inj' (hsplit.trans (List.append_assoc pre (_ :: post) [last]).symm) rfl
      cases (List.cons.inj hlast).1
      refine Or.inl ⟨⟨pre, post, password, ip, random, hfront, fun a ha => hpost a (by simp [ha])⟩, ?_⟩
      rintro rfl
      exact hpost answer (by simp)
  · rintro (⟨⟨pre, post, password, ip, random, rfl, hpost⟩, hne⟩ | ⟨⟨password, ip, random, rfl⟩, rfl⟩)
    · refine ⟨pre, post ++ [(call, answer)], password, ip, random, by simp, ?_⟩
      intro a ha
      rcases List.mem_append.mp ha with ha | ha
      · exact hpost a ha
      · exact hne (Prod.mk.inj (List.mem_singleton.mp ha)).1.symm
    · exact ⟨h, [], password, ip, random, rfl, by simp⟩

theorem registered_concat (h : AuthHistory) (call : AuthCall) (answer : AuthAnswer) (username : String)
    (user : AuthUser) :
    Registered (h ++ [(call, answer)]) username user ↔
      Registered h username user ∨
        ((∃ password salt, call = .registerUser username password salt) ∧ answer = .registered (.ok user)) := by
  constructor
  · rintro ⟨password, salt, hm⟩
    rcases List.mem_append.mp hm with hm | hm
    · exact Or.inl ⟨password, salt, hm⟩
    · obtain ⟨hcall, hanswer⟩ := Prod.mk.inj (List.mem_singleton.mp hm)
      exact Or.inr ⟨⟨password, salt, hcall.symm⟩, hanswer.symm⟩
  · rintro (⟨password, salt, hm⟩ | ⟨⟨password, salt, rfl⟩, rfl⟩)
    · exact ⟨password, salt, List.mem_append_left _ hm⟩
    · exact ⟨password, salt, by simp⟩

end AuthHistory

namespace AuthService

variable {kdf : Pbkdf2}

inductive Effect (s : AuthService) : AuthCall → AuthService × AuthAnswer → Prop
  | refuseUser {username password : String} {salt : Vector UInt8 16} (e : Error) :
      Effect s (.registerUser username password salt) (s, .registered (.error e))
  | addUser {username password : String} {salt : Vector UInt8 16} {record : UserRecord} (hnew : username ∉ s.users)
      (hname : record.username = username) (hid : record.id = s.nextUserId) :
      Effect s (.registerUser username password salt)
        ({ s with nextUserId := s.nextUserId + 1, users := s.users.insert username record },
          .registered (.ok ⟨record.id, record.username⟩))
  | refuseLogin {username password ip : String} {random : Vector UInt8 32} {now : Int} (rateLimiter : RateLimiter)
      (e : Error) :
      Effect s (.login username password ip random now) ({ s with rateLimiter := rateLimiter }, .loggedIn (.error e))
  | acceptLogin {username password ip : String} {random : Vector UInt8 32} {now : Int} {record : UserRecord}
      (rateLimiter : RateLimiter) (hrecord : s.users.lookup username = some record) :
      Effect s (.login username password ip random now)
        ((({ s with rateLimiter := rateLimiter }.cleanupExpired now).openSession (s.newSession record random now)),
          .loggedIn (.ok (s.newSession record random now)))
  | logout {token : Bytes} :
      Effect s (.logout token) ({ s with sessions := s.sessions.erase token }, .loggedOut (token ∈ s.sessions))
  | unknown {token : Bytes} {now : Int} (hnone : s.sessions.lookup token = none) :
      Effect s (.validateToken token now) (s, .validated none)
  | expired {token : Bytes} {now : Int} {session : AuthSession} (hsome : s.sessions.lookup token = some session)
      (hlate : session.expiresAt < now) :
      Effect s (.validateToken token now) ({ s with sessions := s.sessions.erase token }, .validated none)
  | valid {token : Bytes} {now : Int} {session : AuthSession} (hsome : s.sessions.lookup token = some session)
      (htime : now ≤ session.expiresAt) : Effect s (.validateToken token now) (s, .validated (some session))

theorem authenticate_effect (kdf : Pbkdf2) (s : AuthService) (username password ip : String) (now : Int) :
    ∃ rateLimiter, (authenticate kdf s username password ip now).1 = { s with rateLimiter := rateLimiter } ∧
      ∀ record, (authenticate kdf s username password ip now).2 = .ok record →
        s.users.lookup username = some record := by
  refine ⟨(s.rateLimiter.allow ip now).1, ?_, ?_⟩
  · simp only [authenticate]
    split
    next => rfl
    next =>
      split
      next => rfl
      next => split <;> rfl
  · intro record h
    simp only [authenticate] at h
    split at h
    next => cases h
    next =>
      split at h
      next => cases h
      next hlookup =>
        split at h
        next =>
          cases h
          exact hlookup
        next => cases h

theorem effect_of_call (kdf : Pbkdf2) (s : AuthService) (call : AuthCall) : Effect s call (s.call kdf call) := by
  cases call with
  | registerUser username password salt =>
      simp only [AuthService.call, registerUser]
      split
      next => exact .refuseUser _
      next =>
        split
        next => exact .refuseUser _
        next hnew => exact .addUser hnew rfl rfl
  | login username password ip random now =>
      obtain ⟨rateLimiter, hs, hrecord⟩ := authenticate_effect kdf s username password ip now
      simp only [AuthService.call, login]
      split
      next t e heq =>
        rw [heq] at hs
        cases hs
        exact .refuseLogin _ e
      next t record heq =>
        rw [heq] at hs hrecord
        cases hs
        exact .acceptLogin _ (hrecord record rfl)
  | logout token => exact .logout
  | validateToken token now =>
      simp only [AuthService.call, validateToken]
      split
      next hnone => exact .unknown hnone
      next session hsome =>
        split
        next hlate => exact .expired hsome hlate
        next htime => exact .valid hsome (Int.not_lt.mp htime)

end AuthService

namespace AuthRun

open AuthHistory

/-- The clock does not go back, and no token is generated twice. -/
def step (kdf : Pbkdf2) (s : AuthRun) (call : AuthCall) : Option AuthRun :=
  let result := s.service.call kdf call
  if (∃ now ∈ call.now, ∃ m ∈ s.clock, now < m) ∨ (∃ token ∈ result.2.token, token ∈ s.generated) then none
  else some {
    service := result.1
    clock := call.now.or s.clock
    generated := s.generated ++ result.2.token.toList }

def machine (kdf : Pbkdf2) (config : AuthConfig) : Machine AuthRun AuthCall where
  init := { service := { config := config } }
  step := step kdf

def historyMachine (kdf : Pbkdf2) (config : AuthConfig) : Machine (AuthRun × AuthHistory) AuthCall :=
  (machine kdf config).recorded fun s call => [(call, (s.service.call kdf call).2)]

def Past (clock : Option Int) (t : Int) : Prop := ∃ m ∈ clock, t < m

theorem Past.or {clock next : Option Int} {t : Int} (h : Past clock t)
    (hmono : ¬ ∃ now ∈ next, ∃ m ∈ clock, now < m) : Past (next.or clock) t := by
  cases next with
  | none => exact h
  | some now =>
      obtain ⟨m, hm, ht⟩ := h
      refine ⟨now, rfl, ?_⟩
      by_contra hle
      exact hmono ⟨now, rfl, m, hm, by omega⟩

/-- The users are those who have registered, each with an id of their own. -/
structure UserInv (users : Table String UserRecord) (nextUserId : Int) (h : AuthHistory) : Prop where
  known : ∀ username record, users.lookup username = some record →
    record.username = username ∧ Registered h username ⟨record.id, username⟩ ∧ record.id < nextUserId
  stored : ∀ username user, Registered h username user →
    ∃ record, users.lookup username = some record ∧ user = ⟨record.id, username⟩
  distinct : ∀ u v a b, users.lookup u = some a → users.lookup v = some b → a.id = b.id → u = v

/-- The sessions are those of the logins. Only one that has expired may be
missing. -/
structure SessionInv (ttl : Int) (sessions : Table Bytes AuthSession) (clock : Option Int) (generated : List Bytes)
    (h : AuthHistory) : Prop where
  known : ∀ token session, sessions.lookup token = some session →
    session.token = token ∧ ∃ username now, LoggedIn h session username now
  stored : ∀ session username now, LoggedIn h session username now →
    sessions.lookup session.token = some session ∨ Past clock session.expiresAt
  logins : ∀ session username now, LoggedIn h session username now →
    session.expiresAt = Clock.addSeconds now ttl ∧ Registered h username session.user ∧ session.token ∈ generated

structure Inv (config : AuthConfig) (s : AuthRun) (h : AuthHistory) : Prop where
  config_eq : s.service.config = config
  users : UserInv s.service.users s.service.nextUserId h
  sessions : SessionInv config.tokenTtl s.service.sessions s.clock s.generated h

theorem inv_init (kdf : Pbkdf2) (config : AuthConfig) : Inv config (machine kdf config).init [] := by
  have hno : ∀ session username now, ¬ LoggedIn [] session username now := by
    rintro session username now ⟨pre, post, password, ip, random, hsplit, -⟩
    simp at hsplit
  refine ⟨rfl, ⟨?_, ?_, ?_⟩, ⟨?_, ?_, ?_⟩⟩
  · intro username record hl
    simp [machine] at hl
  · rintro username user ⟨password, salt, hm⟩
    cases hm
  · intro u v a b ha
    simp [machine] at ha
  · intro token session hl
    simp [machine] at hl
  · intro session username now hl
    exact absurd hl (hno session username now)
  · intro session username now hl
    exact absurd hl (hno session username now)

namespace UserInv

variable {users : Table String UserRecord} {nextUserId : Int} {h : AuthHistory}

theorem other (hi : UserInv users nextUserId h) {call : AuthCall} {answer : AuthAnswer}
    (hno : ∀ user, answer ≠ .registered (.ok user)) : UserInv users nextUserId (h ++ [(call, answer)]) := by
  have hsame : ∀ username user, Registered (h ++ [(call, answer)]) username user ↔ Registered h username user := by
    intro username user
    rw [registered_concat]
    exact or_iff_left fun hnew => hno user hnew.2
  refine ⟨?_, ?_, hi.distinct⟩
  · intro username record hl
    rw [hsame]
    exact hi.known username record hl
  · intro username user hr
    exact hi.stored username user ((hsame username user).mp hr)

theorem add (hi : UserInv users nextUserId h) {username password : String} {salt : Vector UInt8 16}
    {record : UserRecord} (hnew : username ∉ users) (hname : record.username = username)
    (hid : record.id = nextUserId) :
    UserInv (users.insert username record) (nextUserId + 1)
      (h ++ [(.registerUser username password salt, .registered (.ok ⟨record.id, record.username⟩))]) := by
  have hnone : users.lookup username = none := AList.lookup_eq_none.mpr hnew
  have hdiffer : ∀ v a, users.lookup v = some a → a.id ≠ record.id := by
    intro v a ha he
    have hlt := (hi.known v a ha).2.2
    omega
  refine ⟨?_, ?_, ?_⟩
  · intro u a ha
    rw [Table.lookup_insert_eq] at ha
    rw [registered_concat]
    split at ha
    next hu =>
      cases ha
      subst hu
      exact ⟨hname, Or.inr ⟨⟨password, salt, rfl⟩, by rw [hname]⟩, by omega⟩
    next =>
      obtain ⟨hua, hr, hlt⟩ := hi.known u a ha
      exact ⟨hua, Or.inl hr, by omega⟩
  · intro u user hr
    rw [registered_concat] at hr
    rw [Table.lookup_insert_eq]
    rcases hr with hr | ⟨⟨_, _, hcall⟩, hanswer⟩
    · obtain ⟨a, ha, huser⟩ := hi.stored u user hr
      have hu : u ≠ username := by
        rintro rfl
        rw [hnone] at ha
        cases ha
      exact ⟨a, by rw [if_neg hu, ha], huser⟩
    · cases hcall
      cases hanswer
      exact ⟨record, if_pos rfl, by rw [hname]⟩
  · intro u v a b ha hb hab
    rw [Table.lookup_insert_eq] at ha hb
    split at ha
    next hu =>
      cases ha
      split at hb
      next hv => rw [hu, hv]
      next => exact absurd hab.symm (hdiffer v b hb)
    next hu =>
      split at hb
      next =>
        cases hb
        exact absurd hab (hdiffer u a ha)
      next => exact hi.distinct u v a b ha hb hab

end UserInv

namespace SessionInv

variable {ttl : Int} {sessions : Table Bytes AuthSession} {clock : Option Int} {generated : List Bytes}
  {h : AuthHistory}

theorem loggedIn_other {call : AuthCall} {answer : AuthAnswer} (hlogout : ∀ token, call ≠ .logout token)
    (hlogin : ∀ session, answer ≠ .loggedIn (.ok session)) (session : AuthSession) (username : String) (now : Int) :
    LoggedIn (h ++ [(call, answer)]) session username now ↔ LoggedIn h session username now := by
  rw [loggedIn_concat, or_iff_left fun hnew => hlogin session hnew.2]
  exact and_iff_left (hlogout session.token)

theorem registered_mono {call : AuthCall} {answer : AuthAnswer} {username : String} {user : AuthUser}
    (hr : Registered h username user) : Registered (h ++ [(call, answer)]) username user :=
  (registered_concat h call answer username user).mpr (Or.inl hr)

theorem other (hi : SessionInv ttl sessions clock generated h) {call : AuthCall} {answer : AuthAnswer}
    (hlogout : ∀ token, call ≠ .logout token) (hlogin : ∀ session, answer ≠ .loggedIn (.ok session))
    (hmono : ¬ ∃ now ∈ call.now, ∃ m ∈ clock, now < m) {kept : Table Bytes AuthSession}
    (hsub : ∀ token session, kept.lookup token = some session → sessions.lookup token = some session)
    (hkept : ∀ token session, sessions.lookup token = some session →
      kept.lookup token = some session ∨ Past (call.now.or clock) session.expiresAt) :
    SessionInv ttl kept (call.now.or clock) generated (h ++ [(call, answer)]) := by
  refine ⟨?_, ?_, ?_⟩
  · intro token session hl
    obtain ⟨htoken, username, now, hin⟩ := hi.known token session (hsub token session hl)
    exact ⟨htoken, username, now, (loggedIn_other hlogout hlogin session username now).mpr hin⟩
  · intro session username now hin
    rcases hi.stored session username now ((loggedIn_other hlogout hlogin session username now).mp hin) with hl | hp
    · exact hkept session.token session hl
    · exact Or.inr (hp.or hmono)
  · intro session username now hin
    obtain ⟨hexp, hr, hg⟩ := hi.logins session username now
      ((loggedIn_other hlogout hlogin session username now).mp hin)
    exact ⟨hexp, registered_mono hr, hg⟩

theorem logout (hi : SessionInv ttl sessions clock generated h) (token : Bytes) (answer : Bool) :
    SessionInv ttl (sessions.erase token) clock generated (h ++ [(.logout token, .loggedOut answer)]) := by
  have hin : ∀ session username now, LoggedIn (h ++ [(.logout token, .loggedOut answer)]) session username now ↔
      LoggedIn h session username now ∧ session.token ≠ token := by
    intro session username now
    rw [loggedIn_concat, or_iff_left (by simp)]
    simp [eq_comm]
  refine ⟨?_, ?_, ?_⟩
  · intro t session hl
    rw [Table.lookup_erase_eq] at hl
    split at hl
    next => cases hl
    next hne =>
      obtain ⟨ht, username, now, hlogin⟩ := hi.known t session hl
      exact ⟨ht, username, now, (hin session username now).mpr ⟨hlogin, ht ▸ hne⟩⟩
  · intro session username now hlogin
    obtain ⟨hlogin, hne⟩ := (hin session username now).mp hlogin
    rw [Table.lookup_erase_eq, if_neg hne]
    exact hi.stored session username now hlogin
  · intro session username now hlogin
    obtain ⟨hexp, hr, hg⟩ := hi.logins session username now ((hin session username now).mp hlogin).1
    exact ⟨hexp, registered_mono hr, hg⟩

theorem login (hi : SessionInv ttl sessions clock generated h) {username password ip : String}
    {random : Vector UInt8 32} {now : Int} {session : AuthSession} (hmono : ¬ ∃ m ∈ clock, now < m)
    (hfresh : session.token ∉ generated) (hexp : session.expiresAt = Clock.addSeconds now ttl)
    (hr : Registered h username session.user) :
    SessionInv ttl ((sessions.filter fun _ old => ¬ now > old.expiresAt).insert session.token session) (some now)
      (generated ++ [session.token])
      (h ++ [(.login username password ip random now, .loggedIn (.ok session))]) := by
  have hin : ∀ old u m, LoggedIn (h ++ [(.login username password ip random now, .loggedIn (.ok session))]) old u m ↔
      LoggedIn h old u m ∨ (u = username ∧ m = now ∧ old = session) := by
    intro old u m
    rw [loggedIn_concat]
    constructor
    · rintro (⟨hold, -⟩ | ⟨⟨_, _, _, hcall⟩, hanswer⟩)
      · exact Or.inl hold
      · cases hcall
        cases hanswer
        exact Or.inr ⟨rfl, rfl, rfl⟩
    · rintro (hold | ⟨rfl, rfl, rfl⟩)
      · exact Or.inl ⟨hold, by simp⟩
      · exact Or.inr ⟨⟨password, ip, random, rfl⟩, rfl⟩
  refine ⟨?_, ?_, ?_⟩
  · intro token old hl
    rw [Table.lookup_insert_eq] at hl
    split at hl
    next htoken =>
      cases hl
      exact ⟨htoken.symm, username, now, (hin _ _ _).mpr (Or.inr ⟨rfl, rfl, rfl⟩)⟩
    next =>
      obtain ⟨htoken, u, m, hold⟩ := hi.known token old ((Table.lookup_filter_eq_some _ _ _ _).mp hl).1
      exact ⟨htoken, u, m, (hin _ _ _).mpr (Or.inl hold)⟩
  · intro old u m hlogin
    rw [Table.lookup_insert_eq]
    rcases (hin old u m).mp hlogin with hold | ⟨rfl, rfl, rfl⟩
    · have hne : old.token ≠ session.token := fun he => hfresh (he ▸ (hi.logins old u m hold).2.2)
      rw [if_neg hne]
      rcases hi.stored old u m hold with hl | hpast
      · by_cases hlate : now > old.expiresAt
        · exact Or.inr ⟨now, rfl, hlate⟩
        · exact Or.inl ((Table.lookup_filter_eq_some _ _ _ _).mpr ⟨hl, by simpa using hlate⟩)
      · have hlater : Past ((some now).or clock) old.expiresAt := hpast.or (by simpa using hmono)
        exact Or.inr hlater
    · exact Or.inl (if_pos rfl)
  · intro old u m hlogin
    rcases (hin old u m).mp hlogin with hold | ⟨rfl, rfl, rfl⟩
    · obtain ⟨he, hr', hg⟩ := hi.logins old u m hold
      exact ⟨he, registered_mono hr', List.mem_append_left _ hg⟩
    · exact ⟨hexp, registered_mono hr, by simp⟩

end SessionInv

theorem erase_expired {sessions : Table Bytes AuthSession} {clock : Option Int} {token : Bytes}
    {session : AuthSession} {now : Int} (hsome : sessions.lookup token = some session)
    (hlate : session.expiresAt < now) (t : Bytes) (old : AuthSession) (hl : sessions.lookup t = some old) :
    AList.lookup t (sessions.erase token) = some old ∨ Past ((some now).or clock) old.expiresAt := by
  rw [Table.lookup_erase_eq]
  split
  next ht =>
    rw [ht, hsome] at hl
    cases hl
    exact Or.inr ⟨now, rfl, hlate⟩
  next => exact Or.inl hl

theorem lookup_of_erase {sessions : Table Bytes AuthSession} {token t : Bytes} {old : AuthSession}
    (hl : AList.lookup t (sessions.erase token) = some old) : sessions.lookup t = some old := by
  rw [Table.lookup_erase_eq] at hl
  split at hl
  next => cases hl
  next => exact hl

theorem Inv.effect {config : AuthConfig} {s : AuthRun} {h : AuthHistory} {call : AuthCall}
    {result : AuthService × AuthAnswer} (hi : Inv config s h) (he : AuthService.Effect s.service call result)
    (hmono : ¬ ∃ now ∈ call.now, ∃ m ∈ s.clock, now < m) (hfresh : ∀ token ∈ result.2.token, token ∉ s.generated) :
    Inv config ⟨result.1, call.now.or s.clock, s.generated ++ result.2.token.toList⟩ (h ++ [(call, result.2)]) := by
  cases he with
  | refuseUser e =>
      refine ⟨hi.config_eq, hi.users.other (by simp), ?_⟩
      simpa [AuthAnswer.token] using
        hi.sessions.other (by simp) (by simp) hmono (fun _ _ hl => hl) (fun _ _ hl => Or.inl hl)
  | addUser hnew hname hid =>
      refine ⟨hi.config_eq, hi.users.add hnew hname hid, ?_⟩
      simpa [AuthAnswer.token] using
        hi.sessions.other (by simp) (by simp) hmono (fun _ _ hl => hl) (fun _ _ hl => Or.inl hl)
  | refuseLogin rateLimiter e =>
      refine ⟨hi.config_eq, hi.users.other (by simp), ?_⟩
      simpa [AuthAnswer.token] using
        hi.sessions.other (by simp) (by simp) hmono (fun _ _ hl => hl) (fun _ _ hl => Or.inl hl)
  | @acceptLogin username password ip random now record rateLimiter hrecord =>
      obtain ⟨hname, hr, -⟩ := hi.users.known username record hrecord
      refine ⟨hi.config_eq, hi.users.other (by simp), ?_⟩
      apply hi.sessions.login
      · simpa [AuthCall.now] using hmono
      · exact hfresh _ rfl
      · rw [← hi.config_eq]
        rfl
      · simpa [AuthService.newSession, hname] using hr
  | @logout token =>
      refine ⟨hi.config_eq, hi.users.other (by simp), ?_⟩
      simpa [AuthAnswer.token, AuthCall.now] using hi.sessions.logout token _
  | unknown hnone =>
      refine ⟨hi.config_eq, hi.users.other (by simp), ?_⟩
      simpa [AuthAnswer.token] using
        hi.sessions.other (by simp) (by simp) hmono (fun _ _ hl => hl) (fun _ _ hl => Or.inl hl)
  | expired hsome hlate =>
      refine ⟨hi.config_eq, hi.users.other (by simp), ?_⟩
      simpa [AuthAnswer.token] using
        hi.sessions.other (by simp) (by simp) hmono (fun _ _ hl => lookup_of_erase hl)
          (fun t old hl => erase_expired hsome hlate t old hl)
  | valid hsome htime =>
      refine ⟨hi.config_eq, hi.users.other (by simp), ?_⟩
      simpa [AuthAnswer.token] using
        hi.sessions.other (by simp) (by simp) hmono (fun _ _ hl => hl) (fun _ _ hl => Or.inl hl)

theorem inv_step {kdf : Pbkdf2} {config : AuthConfig} {s t : AuthRun} {h : AuthHistory} {call : AuthCall}
    (hi : Inv config s h) (hs : step kdf s call = some t) :
    Inv config t (h ++ [(call, (s.service.call kdf call).2)]) := by
  simp only [step] at hs
  split at hs
  next => cases hs
  next hok =>
    cases hs
    obtain ⟨hmono, hfresh⟩ := not_or.mp hok
    exact hi.effect (AuthService.effect_of_call kdf s.service call) hmono
      (fun token htoken hin => hfresh ⟨token, htoken, hin⟩)

theorem inv_reachable {kdf : Pbkdf2} {config : AuthConfig} {s : AuthRun} {h : AuthHistory}
    (hr : (historyMachine kdf config).Reachable (s, h)) : Inv config s h := by
  refine hr.recorded_induction (P := Inv config) (inv_init kdf config) ?_
  intro s h call t hi ht
  exact inv_step hi ht

end AuthRun

end GameServer
