import GameServer.AuthHistory

namespace GameServer

namespace Unswept

variable (kdf : Pbkdf2)

def login (s : AuthService) (username password ip : String) (random : Vector UInt8 32) (now : Int) :
    AuthService × Except Error AuthSession :=
  match AuthService.authenticate kdf s username password ip now with
  | (s, .error e) => (s, .error e)
  | (s, .ok record) =>
    let session := s.newSession record random now
    (s.openSession session, .ok session)

def validateToken (s : AuthService) (token : Bytes) (now : Int) : Option AuthSession :=
  match s.sessions.lookup token with
  | none => none
  | some session => if now > session.expiresAt then none else some session

def call (s : AuthService) : AuthCall → AuthService × AuthAnswer
  | .registerUser username password salt => (s.registerUser kdf username password salt).map id .registered
  | .login username password ip random now => (login kdf s username password ip random now).map id .loggedIn
  | .logout token => (s.logout token).map id .loggedOut
  | .validateToken token now => (s, .validated (validateToken s token now))

def answers : AuthService → List AuthCall → List AuthAnswer
  | _, [] => []
  | s, c :: cs => (call kdf s c).2 :: answers (call kdf s c).1 cs

end Unswept

/-- The same answer, or a logout that came after the removal. -/
inductive AuthAnswer.Agrees : AuthAnswer → AuthAnswer → Prop
  | same (answer : AuthAnswer) : Agrees answer answer
  | removed : Agrees (.loggedOut false) (.loggedOut true)

namespace AuthRun

open AuthHistory AuthAnswer

variable {kdf : Pbkdf2}

/-- Two services alike but for sessions that have expired. -/
structure Covers (clock : Option Int) (s r : AuthService) : Prop where
  alike : { s with sessions := r.sessions } = r
  sub : ∀ token session, s.sessions.lookup token = some session → r.sessions.lookup token = some session
  rest : ∀ token session, r.sessions.lookup token = some session →
    s.sessions.lookup token = some session ∨ Past clock session.expiresAt

theorem authenticate_sessions (kdf : Pbkdf2) (s : AuthService) (sessions : Table Bytes AuthSession)
    (username password ip : String) (now : Int) :
    AuthService.authenticate kdf { s with sessions := sessions } username password ip now =
      ({ (AuthService.authenticate kdf s username password ip now).1 with sessions := sessions },
        (AuthService.authenticate kdf s username password ip now).2) := by
  simp only [AuthService.authenticate]
  split
  next => rfl
  next =>
    split
    next => rfl
    next => split <;> rfl

theorem Covers.later {clock next : Option Int} {s r : AuthService} (h : Covers clock s r)
    (hmono : ¬ ∃ now ∈ next, ∃ m ∈ clock, now < m) : Covers (next.or clock) s r :=
  ⟨h.alike, h.sub, fun token session hl => (h.rest token session hl).imp_right (·.or hmono)⟩

section Sessions

variable {clock : Option Int} {sessions others : Table Bytes AuthSession}

theorem sub_open {now : Int} {session : AuthSession}
    (hsub : ∀ token old, sessions.lookup token = some old → others.lookup token = some old) {token : Bytes}
    {old : AuthSession}
    (hl : AList.lookup token ((sessions.filter fun _ old => ¬ now > old.expiresAt).insert session.token session) =
      some old) : AList.lookup token (others.insert session.token session) = some old := by
  rw [Table.lookup_insert_eq] at hl ⊢
  split at hl
  next htoken => rw [if_pos htoken, hl]
  next htoken =>
    rw [if_neg htoken]
    exact hsub token old ((Table.lookup_filter_eq_some _ _ _ _).mp hl).1

theorem rest_open {now : Int} {session : AuthSession}
    (hrest : ∀ token old, others.lookup token = some old →
      sessions.lookup token = some old ∨ Past ((some now).or clock) old.expiresAt) {token : Bytes} {old : AuthSession}
    (hl : AList.lookup token (others.insert session.token session) = some old) :
    AList.lookup token ((sessions.filter fun _ old => ¬ now > old.expiresAt).insert session.token session) =
      some old ∨ Past ((some now).or clock) old.expiresAt := by
  rw [Table.lookup_insert_eq] at hl ⊢
  split at hl
  next htoken => exact Or.inl (by rw [if_pos htoken, hl])
  next htoken =>
    rw [if_neg htoken]
    rcases hrest token old hl with hkept | hpast
    · by_cases hlate : now > old.expiresAt
      · exact Or.inr ⟨now, rfl, hlate⟩
      · exact Or.inl ((Table.lookup_filter_eq_some _ _ _ _).mpr ⟨hkept, by simpa using hlate⟩)
    · exact Or.inr hpast

theorem sub_erase {erased : Bytes}
    (hsub : ∀ token old, sessions.lookup token = some old → others.lookup token = some old) {token : Bytes}
    {old : AuthSession} (hl : AList.lookup token (sessions.erase erased) = some old) :
    AList.lookup token (others.erase erased) = some old := by
  rw [Table.lookup_erase_eq] at hl ⊢
  split at hl
  next => cases hl
  next hne =>
    rw [if_neg hne]
    exact hsub token old hl

theorem rest_erase {erased : Bytes}
    (hrest : ∀ token old, others.lookup token = some old →
      sessions.lookup token = some old ∨ Past clock old.expiresAt) {token : Bytes} {old : AuthSession}
    (hl : AList.lookup token (others.erase erased) = some old) :
    AList.lookup token (sessions.erase erased) = some old ∨ Past clock old.expiresAt := by
  rw [Table.lookup_erase_eq] at hl ⊢
  split at hl
  next => cases hl
  next hne =>
    rw [if_neg hne]
    exact hrest token old hl

end Sessions

theorem Covers.validateToken {clock : Option Int} {s : AuthService} {sessions : Table Bytes AuthSession}
    {token : Bytes} {now : Int} (h : Covers ((some now).or clock) s { s with sessions := sessions }) :
    Covers ((some now).or clock) (s.validateToken token now).1 { s with sessions := sessions } ∧
      (s.validateToken token now).2 = Unswept.validateToken { s with sessions := sessions } token now := by
  cases hl : s.sessions.lookup token with
  | none =>
      have hstay : s.validateToken token now = (s, none) := by simp [AuthService.validateToken, hl]
      rw [hstay]
      refine ⟨h, ?_⟩
      cases hr : sessions.lookup token with
      | none => simp [Unswept.validateToken, hr]
      | some old =>
          rcases h.rest token old hr with hkept | ⟨m, hm, hpast⟩
          · rw [hl] at hkept
            cases hkept
          · cases hm
            simp [Unswept.validateToken, hr, hpast]
  | some session =>
      have hr : sessions.lookup token = some session := h.sub token session hl
      by_cases hlate : now > session.expiresAt
      · have hgone : s.validateToken token now = ({ s with sessions := s.sessions.erase token }, none) := by
          simp [AuthService.validateToken, hl, hlate]
        rw [hgone]
        refine ⟨⟨rfl, fun t old ho => h.sub t old (lookup_of_erase ho), ?_⟩, by simp [Unswept.validateToken, hr, hlate]⟩
        intro t old ho
        rcases h.rest t old ho with hkept | hpast
        · exact erase_expired hl hlate t old hkept
        · exact Or.inr hpast
      · have hstay : s.validateToken token now = (s, some session) := by
          simp [AuthService.validateToken, hl, hlate]
        rw [hstay]
        exact ⟨h, by simp [Unswept.validateToken, hr, hlate]⟩

theorem Covers.call (kdf : Pbkdf2) {clock : Option Int} {s r : AuthService} (h : Covers clock s r) (call : AuthCall)
    (hmono : ¬ ∃ now ∈ call.now, ∃ m ∈ clock, now < m) :
    Covers (call.now.or clock) (s.call kdf call).1 (Unswept.call kdf r call).1 ∧
      Agrees (s.call kdf call).2 (Unswept.call kdf r call).2 := by
  have hlater := h.later hmono
  obtain ⟨sessions, rfl⟩ : ∃ sessions, r = { s with sessions := sessions } := ⟨r.sessions, h.alike.symm⟩
  cases call with
  | registerUser username password salt =>
      simp only [AuthService.call, Unswept.call, AuthService.registerUser]
      split
      next => exact ⟨hlater, .same _⟩
      next =>
        split
        next => exact ⟨hlater, .same _⟩
        next => exact ⟨⟨rfl, hlater.sub, hlater.rest⟩, .same _⟩
  | login username password ip random now =>
      simp only [AuthService.call, Unswept.call, AuthService.login, Unswept.login, authenticate_sessions]
      obtain ⟨rateLimiter, hs, -⟩ := AuthService.authenticate_effect kdf s username password ip now
      cases hresult : AuthService.authenticate kdf s username password ip now with
      | mk t result =>
          rw [hresult] at hs
          cases hs
          cases result with
          | error e => exact ⟨⟨rfl, hlater.sub, hlater.rest⟩, .same _⟩
          | ok record =>
              exact ⟨⟨rfl, fun _ _ hl => sub_open hlater.sub hl, fun _ _ hl => rest_open hlater.rest hl⟩, .same _⟩
  | logout token =>
      refine ⟨⟨rfl, fun _ _ hl => sub_erase hlater.sub hl, fun _ _ hl => rest_erase hlater.rest hl⟩, ?_⟩
      change Agrees (.loggedOut (token ∈ s.sessions)) (.loggedOut (token ∈ sessions))
      by_cases hs : token ∈ s.sessions
      · obtain ⟨old, hl⟩ := (Table.mem_iff_lookup _ _).mp hs
        have hr : token ∈ sessions := (Table.mem_iff_lookup _ _).mpr ⟨old, hlater.sub token old hl⟩
        simpa [hs, hr] using Agrees.same _
      · by_cases hr : token ∈ sessions
        · simpa [hs, hr] using Agrees.removed
        · simpa [hs, hr] using Agrees.same _
  | validateToken token now =>
      obtain ⟨hcovers, hsame⟩ := hlater.validateToken
      refine ⟨hcovers, ?_⟩
      change Agrees (.validated (s.validateToken token now).2) (.validated (Unswept.validateToken _ token now))
      rw [hsame]
      exact .same _

/-- A run of the service beside one of the service without removals. -/
theorem agrees_run {config : AuthConfig} (calls : List AuthCall) {s t : AuthRun} {g h : AuthHistory} {r : AuthService}
    (hc : Covers s.clock s.service r) (hrun : (historyMachine kdf config).runFrom (s, g) calls = some (t, h)) :
    ∃ tail, h = g ++ tail ∧ tail.map (·.1) = calls ∧
      List.Forall₂ Agrees (tail.map (·.2)) (Unswept.answers kdf r calls) := by
  induction calls generalizing s g r with
  | nil =>
      cases hrun
      exact ⟨[], (List.append_nil _).symm, rfl, .nil⟩
  | cons call calls ih =>
      obtain ⟨⟨u, f⟩, hstep, hrun⟩ := Option.bind_eq_some_iff.mp hrun
      obtain ⟨hs, rfl⟩ := Machine.recorded_step.mp hstep
      change step kdf s call = some u at hs
      simp only [step] at hs
      split at hs
      next => cases hs
      next hok =>
        cases hs
        obtain ⟨hcovers, hagree⟩ := hc.call kdf call (not_or.mp hok).1
        obtain ⟨tail, rfl, hcalls, hanswers⟩ := ih hcovers hrun
        exact ⟨(call, (s.service.call kdf call).2) :: tail, by simp, by simp [hcalls], .cons hagree hanswers⟩

theorem validateToken_eq_some (s : AuthService) (token : Bytes) (now : Int) (session : AuthSession) :
    (s.validateToken token now).2 = some session ↔
      s.sessions.lookup token = some session ∧ now ≤ session.expiresAt := by
  cases hl : s.sessions.lookup token with
  | none => simp [AuthService.validateToken, hl]
  | some old =>
      by_cases hlate : now > old.expiresAt
      · simp only [AuthService.validateToken, hl, hlate, if_true]
        constructor
        · intro h
          cases h
        · rintro ⟨he, hle⟩
          cases he
          omega
      · simp only [AuthService.validateToken, hl, hlate, if_false]
        constructor
        · intro h
          cases h
          exact ⟨rfl, Int.not_lt.mp hlate⟩
        · exact fun h => h.1

namespace Inv

variable {config : AuthConfig} {s : AuthRun} {h : AuthHistory}

theorem validates (hi : Inv config s h) {token : Bytes} {now : Int} (hnow : ∀ m ∈ s.clock, m ≤ now)
    (session : AuthSession) :
    (s.service.validateToken token now).2 = some session ↔
      session.token = token ∧
        ∃ username m, LoggedIn h session username m ∧ now ≤ Clock.addSeconds m config.tokenTtl := by
  rw [validateToken_eq_some]
  constructor
  · rintro ⟨hl, hle⟩
    obtain ⟨htoken, username, m, hin⟩ := hi.sessions.known token session hl
    rw [(hi.sessions.logins session username m hin).1] at hle
    exact ⟨htoken, username, m, hin, hle⟩
  · rintro ⟨rfl, username, m, hin, hle⟩
    have hexp := (hi.sessions.logins session username m hin).1
    rcases hi.sessions.stored session username m hin with hl | ⟨c, hc, hpast⟩
    · exact ⟨hl, by omega⟩
    · have hclock := hnow c hc
      omega

theorem registered_unique (hi : Inv config s h) {u v : String} {a b : AuthUser} (ha : Registered h u a)
    (hb : Registered h v b) : a.username = u ∧ (u = v ↔ a.userId = b.userId) := by
  obtain ⟨r, hr, rfl⟩ := hi.users.stored u a ha
  obtain ⟨q, hq, rfl⟩ := hi.users.stored v b hb
  refine ⟨rfl, ?_, fun hid => hi.users.distinct u v r q hr hq hid⟩
  rintro rfl
  rw [hr] at hq
  cases hq
  rfl

theorem logout_live (hi : Inv config s h) {session : AuthSession} {username : String} {m : Int}
    (hin : LoggedIn h session username m) (hlive : ∀ c ∈ s.clock, c ≤ session.expiresAt) :
    (s.service.logout session.token).2 = true := by
  rcases hi.sessions.stored session username m hin with hl | ⟨c, hc, hpast⟩
  · exact decide_eq_true ((Table.mem_iff_lookup _ _).mpr ⟨session, hl⟩)
  · have hle := hlive c hc
    omega

theorem logout_known (hi : Inv config s h) {token : Bytes} (htrue : (s.service.logout token).2 = true) :
    ∃ session username m, LoggedIn h session username m ∧ session.token = token := by
  obtain ⟨session, hl⟩ := (Table.mem_iff_lookup _ _).mp (of_decide_eq_true htrue)
  obtain ⟨htoken, username, m, hin⟩ := hi.sessions.known token session hl
  exact ⟨session, username, m, hin, htoken⟩

end Inv

/-- A token is accepted exactly from its login to its logout or to the end of
its time. Sessions carry registered users, each with an id of their own. The
removals show in no answer but that of a logout of an expired token. -/
theorem history_spec {config : AuthConfig} {calls : List AuthCall} {s : AuthRun} {h : AuthHistory}
    (hrun : (historyMachine kdf config).run calls = some (s, h)) :
    (∀ token now session, (∀ m ∈ s.clock, m ≤ now) →
      ((s.service.validateToken token now).2 = some session ↔
        session.token = token ∧
          ∃ username m, LoggedIn h session username m ∧ now ≤ Clock.addSeconds m config.tokenTtl)) ∧
    (∀ m, Clock.addSeconds m config.tokenTtl = m + config.tokenTtl * 1000000000 ↔
      Clock.FitsClock (m + config.tokenTtl * 1000000000)) ∧
    (∀ session username m, LoggedIn h session username m → Registered h username session.user) ∧
    (∀ u v a b, Registered h u a → Registered h v b → a.username = u ∧ (u = v ↔ a.userId = b.userId)) ∧
    (h.map (·.1) = calls ∧ List.Forall₂ Agrees (h.map (·.2)) (Unswept.answers kdf { config := config } calls)) ∧
    (∀ session username m, LoggedIn h session username m → (∀ c ∈ s.clock, c ≤ session.expiresAt) →
      (s.service.logout session.token).2 = true) ∧
    (∀ token, (s.service.logout token).2 = true →
      ∃ session username m, LoggedIn h session username m ∧ session.token = token) := by
  have hi : Inv config s h := inv_reachable (Machine.Reachable.of_run hrun)
  have hcovers : Covers none { config := config } { config := config } :=
    ⟨rfl, fun _ _ hl => hl, fun _ _ hl => Or.inl hl⟩
  obtain ⟨tail, rfl, hcalls, hanswers⟩ := agrees_run calls hcovers hrun
  refine ⟨?_, ?_, ?_, ?_, ⟨hcalls, hanswers⟩, ?_, ?_⟩
  · intro token now session hnow
    exact hi.validates hnow session
  · intro m
    exact Clock.addSeconds_eq_plain_iff m config.tokenTtl
  · intro session username m hin
    exact (hi.sessions.logins session username m hin).2.1
  · intro u v a b ha hb
    exact hi.registered_unique ha hb
  · intro session username m hin hlive
    exact hi.logout_live hin hlive
  · intro token htrue
    exact hi.logout_known htrue

def constantKdf : Pbkdf2 := fun _ _ => Vector.replicate 32 0

def oneLogin : List AuthCall :=
  [.registerUser "kim" "pw" (Vector.replicate 16 1), .login "kim" "pw" "ip" (Vector.replicate 32 2) 5]

def oneToken : Bytes := bytesToHex (List.replicate 32 2)

theorem history_spec_one : ∃ s h, (historyMachine constantKdf { tokenTtl := 1 }).run oneLogin = some (s, h) ∧
    ∃ session, (s.service.validateToken oneToken 1000000005).2 = some session ∧ session.token = oneToken ∧
      ∃ username m, LoggedIn h session username m ∧ 1000000005 ≤ Clock.addSeconds m 1 := by
  obtain ⟨⟨s, h⟩, hrun, -, hclock, hvalid⟩ :=
    Machine.exists_of_run (M := historyMachine constantKdf { tokenTtl := 1 }) oneLogin
      (fun r => (∀ m ∈ r.1.clock, m ≤ 1000000005) ∧
        (r.1.service.validateToken oneToken 1000000005).2.isSome) (by decide)
  obtain ⟨session, hsession⟩ := Option.isSome_iff_exists.mp hvalid
  exact ⟨s, h, hrun, session, hsession, ((history_spec hrun).1 oneToken 1000000005 session hclock).mp hsession⟩

/-- Whether some call has looked at an expired token decides what its logout
answers, and a token whose expiry does not fit the clock is refused at once. -/
theorem removal_and_wrap_shown :
    (∃ r, (historyMachine constantKdf { tokenTtl := 1 }).run
      (oneLogin ++ [.validateToken oneToken 1000000006, .logout oneToken]) = some r ∧
        r.2.map (·.2) ≠ Unswept.answers constantKdf { config := { tokenTtl := 1 } }
          (oneLogin ++ [.validateToken oneToken 1000000006, .logout oneToken]) ∧
        r.2.getLast?.map (·.2) = some (.loggedOut false)) ∧
    (∃ r, (historyMachine constantKdf { tokenTtl := 1 }).run
      (oneLogin ++ [.validateToken [] 1000000006, .logout oneToken]) = some r ∧
        r.2.getLast?.map (·.2) = some (.loggedOut true)) ∧
    ∃ r, (historyMachine constantKdf { tokenTtl := 10000000000 }).run
      (oneLogin ++ [.validateToken oneToken 6]) = some r ∧
        r.2.getLast?.map (·.2) = some (.validated none) ∧ (6 : Int) ≤ 5 + 10000000000 * 1000000000 := by
  refine ⟨?_, ?_, ?_⟩
  · obtain ⟨r, hr, -, hp⟩ := Machine.exists_of_run (M := historyMachine constantKdf { tokenTtl := 1 })
      (oneLogin ++ [.validateToken oneToken 1000000006, .logout oneToken])
      (fun r => r.2.map (·.2) ≠ Unswept.answers constantKdf { config := { tokenTtl := 1 } }
          (oneLogin ++ [.validateToken oneToken 1000000006, .logout oneToken]) ∧
        r.2.getLast?.map (·.2) = some (.loggedOut false)) (by decide)
    exact ⟨r, hr, hp⟩
  · obtain ⟨r, hr, -, hp⟩ := Machine.exists_of_run (M := historyMachine constantKdf { tokenTtl := 1 })
      (oneLogin ++ [.validateToken [] 1000000006, .logout oneToken])
      (fun r => r.2.getLast?.map (·.2) = some (.loggedOut true)) (by decide)
    exact ⟨r, hr, hp⟩
  · obtain ⟨r, hr, -, hp⟩ := Machine.exists_of_run (M := historyMachine constantKdf { tokenTtl := 10000000000 })
      (oneLogin ++ [.validateToken oneToken 6])
      (fun r => r.2.getLast?.map (·.2) = some (.validated none)) (by decide)
    exact ⟨r, hr, hp, by decide⟩

end AuthRun

end GameServer
