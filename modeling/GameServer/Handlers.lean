import GameServer.Contract

namespace GameServer

open Program HttpSession

def HttpCall.guarded : HttpCall → Option HttpCall
  | .validateToken token => some (.validateToken token)
  | .logout token => some (.logout token)
  | .join user timeout => some (.join user timeout)
  | .cancel userId => some (.cancel userId)
  | .getSummary userId => some (.getSummary userId)
  | .accept session => some (.accept session)
  | .ensureUser userId username => some (.ensureUser userId username)
  | _ => none

def HttpCall.For (session : AuthSession) : HttpCall → Prop
  | .logout token => token = session.token
  | .join user _ => user = session.user
  | .cancel userId | .getSummary userId => userId = session.user.userId
  | .accept other => other = session
  | _ => True

def Introduced (calls : List (Sigma HttpCall.Answer)) (user : AuthUser) : Prop :=
  (∃ username password, ⟨.registerUser username password, .ok user⟩ ∈ calls) ∨
    ∃ username password ip session, ⟨.login username password ip, .ok session⟩ ∈ calls ∧ session.user = user

/-- The only token that is looked at is the one in the header, and what is done
for a user is done after it has been found valid. -/
def Authorizes (req : Request) (calls : List (Sigma HttpCall.Answer)) (op : HttpCall) : Prop :=
  match op.guarded with
  | none => True
  | some (.validateToken token) => token = req.bearer
  | some (.ensureUser userId username) => Introduced calls ⟨userId, username⟩
  | some op => ∃ session, ⟨.validateToken req.bearer, some session⟩ ∈ calls ∧ op.For session

theorem authorizes_of_unguarded {req : Request} (calls : List (Sigma HttpCall.Answer)) (op : HttpCall)
    (h : op.guarded = none) : Authorizes req calls op := by
  rw [Authorizes, h]
  trivial

def HttpCall.Acts : HttpCall → Prop
  | .logout _ | .join .. | .cancel _ | .getSummary _ | .accept _ => True
  | _ => False

theorem Authorizes.of_acts {req : Request} {calls : List (Sigma HttpCall.Answer)} {op : HttpCall}
    (h : Authorizes req calls op) (hacts : op.Acts) :
    ∃ session, ⟨.validateToken req.bearer, some session⟩ ∈ calls ∧ op.For session := by
  cases op with
  | logout | join | cancel | getSummary | accept => exact h
  | _ => exact hacts.elim

def HttpCall.Harmless : HttpCall → Prop
  | .registerUser .. | .login .. | .logout _ | .validateToken _ | .ensureUser .. | .getSummary _ | .join .. |
    .cancel _ | .accept _ | .asyncWrite _ => False
  | _ => True

theorem HttpCall.Harmless.unchanged {op : HttpCall} (h : op.Harmless) (answer : op.Answer) :
    ¬ Changed ⟨op, answer⟩ := by
  intro hc
  cases hc <;> exact h

/-- The handler may still fail, as nothing has been changed; or the token of a
login is no text. -/
def Untouched (calls : List (Sigma HttpCall.Answer)) : Prop :=
  (∀ call ∈ calls, ¬ Changed call) ∨ ∃ username password ip session,
    ⟨.login username password ip, .ok session⟩ ∈ calls ∧ ¬ validUtf8 session.token

section Calls

variable {calls more : List (Sigma HttpCall.Answer)}

theorem Untouched.append (h : Untouched calls) (hmore : ∀ call ∈ more, ¬ Changed call) : Untouched (calls ++ more) := by
  rcases h with h | ⟨username, password, ip, session, hmem, hno⟩
  · refine Or.inl ?_
    intro call hcall
    rcases List.mem_append.mp hcall with hcall | hcall
    · exact h call hcall
    · exact hmore call hcall
  · exact Or.inr ⟨username, password, ip, session, List.mem_append_left _ hmem, hno⟩

theorem Untouched.concat (h : Untouched calls) {call : Sigma HttpCall.Answer} (hcall : ¬ Changed call) :
    Untouched (calls ++ [call]) := by
  apply h.append
  intro other hother
  rw [List.mem_singleton.mp hother]
  exact hcall

theorem untouched_of_harmless (h : ∀ call ∈ calls, call.1.Harmless) : Untouched calls :=
  Or.inl fun call hcall => (h call hcall).unchanged call.2

theorem harmless_concat (h : ∀ call ∈ calls, call.1.Harmless) (op : HttpCall) (hop : op.Harmless)
    (answer : op.Answer) : ∀ call ∈ calls ++ [⟨op, answer⟩], call.1.Harmless := by
  intro call hcall
  rcases List.mem_append.mp hcall with hcall | hcall
  · exact h call hcall
  · rw [List.mem_singleton.mp hcall]
    exact hop

theorem Unproved.append {req : Request} (h : Unproved req calls) (hmore : ∀ call ∈ more, call.1.Harmless) :
    Unproved req (calls ++ more) := by
  refine ⟨h.refused.imp_right (List.mem_append_left _), ?_⟩
  intro session hmem
  rcases List.mem_append.mp hmem with hmem | hmem
  · exact h.never session hmem
  · exact hmore _ hmem

theorem Contract.append {parse : Bytes → Option Json} {config : AppConfig} {req : Request} {status : Nat}
    {outcome : Except Error Json} (h : Contract parse config req calls status outcome)
    (hmore : ∀ call ∈ more, call.1.Harmless) : Contract parse config req (calls ++ more) status outcome := by
  have hin : ∀ call ∈ calls, call ∈ calls ++ more := fun call hcall => List.mem_append_left _ hcall
  cases h with
  | health hat => exact .health hat
  | metrics hat ha hq ht he hw => exact .metrics hat (hin _ ha) (hin _ hq) (hin _ ht) (hin _ he) (hin _ hw)
  | opsStatus hat hset htoken ha hq he hw =>
      exact .opsStatus hat hset htoken (hin _ ha) (hin _ hq) (hin _ he) (hin _ hw)
  | opsDenied hat hdenied => exact .opsDenied hat hdenied
  | leaderboard hat hquery hpage => exact .leaderboard hat hquery (hin _ hpage)
  | leaderboardRange hat hquery => exact .leaderboardRange hat hquery
  | profile hat hvalid hsummary => exact .profile hat (hin _ hvalid) (hin _ hsummary)
  | registered hat hnames hcall => exact .registered hat hnames (hin _ hcall)
  | registerRefused hat hnames hcall => exact .registerRefused hat hnames (hin _ hcall)
  | loggedIn hat hnames hip hcall htoken => exact .loggedIn hat hnames (hin _ hip) (hin _ hcall) htoken
  | loginRefused hat hnames hip hcall => exact .loginRefused hat hnames (hin _ hip) (hin _ hcall)
  | badBody hat hno => exact .badBody hat hno
  | badToken hat hnames hip hcall htoken => exact .badToken hat hnames (hin _ hip) (hin _ hcall) htoken
  | loggedOut hat hvalid hcall => exact .loggedOut hat (hin _ hvalid) (hin _ hcall)
  | joined hat hvalid hasks hcall hnow => exact .joined hat (hin _ hvalid) hasks (hin _ hcall) (hin _ hnow)
  | joinRefused hat hvalid hasks hcall => exact .joinRefused hat (hin _ hvalid) hasks (hin _ hcall)
  | joinBody hat hvalid hno => exact .joinBody hat (hin _ hvalid) hno
  | canceled hat hvalid hcall => exact .canceled hat (hin _ hvalid) (hin _ hcall)
  | cancelRefused hat hvalid hcall => exact .cancelRefused hat (hin _ hvalid) (hin _ hcall)
  | unauthorized hat hprotected hno => exact .unauthorized hat hprotected (hno.append hmore)
  | upgradeDenied hupgrade hno => exact .upgradeDenied hupgrade (hno.append hmore)
  | notFound hplain hno => exact .notFound hplain hno

end Calls

/-- The response is one the contract has, and one that reports an error does so
with nothing changed. -/
def Conforms (parse : Bytes → Option Json) (config : AppConfig) (req : Request)
    (calls : List (Sigma HttpCall.Answer)) (res : Response) : Prop :=
  ∃ outcome now, res.body = bodyOf outcome now ∧ Contract parse config req calls res.status outcome ∧
    ∀ e, outcome = .error e → Untouched calls

def Allowed (parse : Bytes → Option Json) (config : AppConfig) (req : Request)
    (calls : List (Sigma HttpCall.Answer)) (op : HttpCall) : Prop :=
  Authorizes req calls op ∧ ∀ res, op = .asyncWrite res → Conforms parse config req calls res

/-- An exception comes out for the given reason, or no response can be sent at
all. -/
def Ends (target : Bytes) (why : List (Sigma HttpCall.Answer) → Prop) (calls : List (Sigma HttpCall.Answer))
    (out : Except Exn Unit) : Prop :=
  ∀ e, out = .error e → validUtf8 target → why calls

namespace HttpSession

variable {parse : Bytes → Option Json} {s : HttpSession} {why : List (Sigma HttpCall.Answer) → Prop}
  {calls : List (Sigma HttpCall.Answer)}

abbrev Keeps (parse : Bytes → Option Json) (s : HttpSession) (why : List (Sigma HttpCall.Answer) → Prop)
    (calls : List (Sigma HttpCall.Answer)) (p : Handler Unit) : Prop :=
  p.Permits (Allowed parse s.config s.req) (Ends s.req.target why) calls

theorem allowed_of_harmless {config : AppConfig} {req : Request} (op : HttpCall) (h : op.Harmless) :
    Allowed parse config req calls op := by
  constructor
  · apply authorizes_of_unguarded
    cases op <;> first | rfl | exact h.elim
  · rintro res rfl
    exact h.elim

theorem ask_keeps (op : HttpCall) (h : op.Harmless) {f : op.Answer → Handler Unit}
    (hf : ∀ answer, s.Keeps parse why (calls ++ [⟨op, answer⟩]) (f answer)) : s.Keeps parse why calls (ask op >>= f) :=
  .request_bind (allowed_of_harmless op h) hf

theorem write_keeps {res : Response} (h : validUtf8 s.req.target → ∀ more, (∀ call ∈ more, call.1.Harmless) →
      Conforms parse s.config s.req (calls ++ more) res) :
    s.Keeps parse why calls (do
      let now : Int ← ask .steadyClock
      Observability.log {
        traceId := s.traceId
        name := s.req.target
        latencyMs := (now - s.requestStart).tdiv 1000000 }
      ask (.asyncWrite res)) := by
  apply ask_keeps .steadyClock trivial
  intro now
  by_cases hvalid : validUtf8 s.req.target
  · obtain ⟨text, htext⟩ := dumped_of_valid hvalid
    rw [Observability.log, htext]
    apply ask_keeps (.print _) trivial
    intro printed
    refine Permits.request ⟨authorizes_of_unguarded _ _ rfl, ?_⟩ ?_
    · intro other hother
      cases hother
      rw [List.append_assoc]
      apply h hvalid
      simp [HttpCall.Harmless]
    · intro answer e he
      cases he
  · rw [log_of_not hvalid]
    intro e _ hyes
    exact absurd hyes hvalid

theorem sendResponse_keeps {res : Response} (h : validUtf8 s.req.target → ∀ more, (∀ call ∈ more, call.1.Harmless) →
      Conforms parse s.config s.req (calls ++ more) res) : s.Keeps parse why calls (s.sendResponse res) := by
  by_cases hstatus : res.status ≥ 400
  · rw [sendResponse, recordError, if_pos hstatus]
    apply ask_keeps .incrementError trivial
    intro counted
    apply write_keeps
    intro hvalid more hmore
    rw [List.append_assoc]
    apply h hvalid
    simpa [HttpCall.Harmless] using hmore
  · rw [sendResponse, recordError, if_neg hstatus]
    exact write_keeps h

theorem succeed_keeps {status : Nat} {data : Json} (h : Contract parse s.config s.req calls status (.ok data)) :
    s.Keeps parse why calls (s.succeed status data) := by
  apply ask_keeps .systemClock trivial
  intro now
  apply sendResponse_keeps
  intro _ more hmore
  refine ⟨.ok data, now, rfl, ?_, ?_⟩
  · rw [List.append_assoc]
    apply h.append
    simpa [HttpCall.Harmless] using hmore
  · intro e he
    cases he

theorem fail_keeps_of_target {status : Nat} {e : Error} (h : validUtf8 s.req.target →
      Contract parse s.config s.req calls status (.error e) ∧ Untouched calls) :
    s.Keeps parse why calls (s.fail status e) := by
  apply ask_keeps .systemClock trivial
  intro now
  apply sendResponse_keeps
  intro hvalid more hmore
  rw [List.append_assoc]
  have hharmless : ∀ call ∈ [⟨.systemClock, now⟩] ++ more, call.1.Harmless := by
    simpa [HttpCall.Harmless] using hmore
  obtain ⟨hcontract, hun⟩ := h hvalid
  exact ⟨.error e, now, rfl, hcontract.append hharmless, fun _ _ => hun.append fun call hcall =>
    (hharmless call hcall).unchanged call.2⟩

theorem fail_keeps {status : Nat} {e : Error} (h : Contract parse s.config s.req calls status (.error e))
    (hun : Untouched calls) : s.Keeps parse why calls (s.fail status e) :=
  fail_keeps_of_target fun _ => ⟨h, hun⟩

theorem act_keeps {session : AuthSession} (hvalid : ⟨.validateToken s.req.bearer, some session⟩ ∈ calls)
    (op : HttpCall) (hacts : op.Acts) (h : op.For session) {f : op.Answer → Handler Unit}
    (hf : ∀ answer, s.Keeps parse why (calls ++ [⟨op, answer⟩]) (f answer)) :
    s.Keeps parse why calls (ask op >>= f) := by
  refine Permits.request_bind ⟨?_, ?_⟩ hf
  · cases op with
    | logout | join | cancel | getSummary | accept => exact ⟨session, hvalid, h⟩
    | _ => exact hacts.elim
  · rintro res rfl
    exact hacts.elim

theorem unproved_of_harmless (h : ∀ call ∈ calls, call.1.Harmless)
    (hrefused : s.req.bearer = [] ∨ ⟨.validateToken s.req.bearer, none⟩ ∈ calls) : Unproved s.req calls :=
  ⟨hrefused, fun _ hmem => h _ hmem⟩

theorem authenticate_keeps {handle : Option AuthSession → Handler Unit} (hclean : ∀ call ∈ calls, call.1.Harmless)
    (hnone : ∀ more, (∀ call ∈ more, ¬ Changed call) → Unproved s.req (calls ++ more) →
      s.Keeps parse why (calls ++ more) (handle none))
    (hsome : ∀ session,
      s.Keeps parse why (calls ++ [⟨.validateToken s.req.bearer, some session⟩]) (handle (some session))) :
    s.Keeps parse why calls (s.extractAuthSession >>= handle) := by
  have hnothing : s.req.bearer = [] → s.Keeps parse why calls (handle none) := by
    intro hbearer
    simpa using hnone [] (by simp) (by simpa using unproved_of_harmless hclean (Or.inl hbearer))
  rw [extractAuthSession]
  split
  next hmissing => exact hnothing (by rw [Request.bearer, hmissing, Option.elim_none])
  next value hvalue =>
    have hbearer : parseBearer value = s.req.bearer := by rw [Request.bearer, hvalue, Option.elim_some]
    dsimp only
    split
    next hempty => exact hnothing (hbearer.symm.trans hempty)
    next =>
      rw [hbearer]
      refine Permits.request_bind ⟨rfl, fun _ h => by cases h⟩ ?_
      intro answer
      cases answer with
      | some session => exact hsome session
      | none =>
          apply hnone
          · intro call hcall
            rw [List.mem_singleton.mp hcall]
            intro hc
            cases hc
          · refine ⟨Or.inr List.mem_concat_self, ?_⟩
            intro session hmem
            rcases List.mem_append.mp hmem with hmem | hmem
            · exact hclean _ hmem
            · cases List.mem_singleton.mp hmem

theorem untouched_proved (h : ∀ call ∈ calls, call.1.Harmless) (token : Bytes) (session : AuthSession) :
    Untouched (calls ++ [⟨.validateToken token, some session⟩]) := by
  apply (untouched_of_harmless h).concat
  intro hc
  cases hc

theorem authenticated_keeps {handle : AuthSession → Handler Unit} (hclean : ∀ call ∈ calls, call.1.Harmless)
    {verb : Verb} {path : String} (hat : s.req.At verb path) (hin : (verb, path) ∈ protectedEndpoints)
    (h : ∀ session,
      ⟨.validateToken s.req.bearer, some session⟩ ∈ calls ++ [⟨.validateToken s.req.bearer, some session⟩] →
      s.Keeps parse why (calls ++ [⟨.validateToken s.req.bearer, some session⟩]) (handle session)) :
    s.Keeps parse why calls (s.authenticated handle) := by
  apply authenticate_keeps hclean
  · intro more hmore hun
    exact fail_keeps (.unauthorized hat hin hun) ((untouched_of_harmless hclean).append hmore)
  · intro session
    exact h session List.mem_concat_self

theorem tryCatch_keeps {p : Handler Unit} {handle : Exn → Handler Unit} (reason : List (Sigma HttpCall.Answer) → Prop)
    (hp : s.Keeps parse reason calls p)
    (hh : ∀ e more, (validUtf8 s.req.target → reason more) → s.Keeps parse why more (handle e)) :
    s.Keeps parse why calls (p.tryCatch handle) := by
  apply Permits.tryCatch
  apply hp.mono
  intro more out hends
  cases out with
  | ok _ => exact fun e he => by cases he
  | error e => exact hh e more (hends e rfl)

theorem throw_keeps (h : why calls) (e : Exn) : s.Keeps parse why calls (.throw e) := fun _ _ _ => h

theorem names_keeps {f : String × String → Handler Unit}
    (hbad : (∀ username password, ¬ s.req.Names parse username password) → why calls)
    (hf : ∀ username password, s.req.Names parse username password →
      s.Keeps parse why calls (f (username, password))) :
    s.Keeps parse why calls (s.parseBody parse >>= fun body => credentials body >>= f) := by
  cases hbody : parse s.req.body with
  | none =>
      rw [parseBody, hbody]
      refine throw_keeps (hbad ?_) _
      rintro username password ⟨body, hsome, -⟩
      rw [hbody] at hsome
      cases hsome
  | some body =>
      rw [parseBody, hbody]
      change s.Keeps parse why calls (credentials body >>= f)
      rcases credentials_cases body with ⟨e, he⟩ | ⟨⟨username, password⟩, hnamed⟩
      · rw [he]
        refine throw_keeps (hbad ?_) _
        rintro username password ⟨other, hsome, hnamed⟩
        rw [hbody] at hsome
        cases hsome
        rw [he] at hnamed
        cases hnamed
      · rw [hnamed]
        exact hf username password ⟨body, hbody, hnamed⟩

theorem asks_keeps {f : String → Int → Handler Unit}
    (hbad : (∀ timeout, ¬ s.req.Asks parse s.config timeout) → why calls)
    (hf : ∀ timeout, s.req.Asks parse s.config timeout → s.Keeps parse why calls (f "normal" timeout)) :
    s.Keeps parse why calls (s.parseBody parse >>= fun body => joinMode body >>= fun mode =>
      s.joinTimeout body >>= f mode) := by
  cases hbody : parse s.req.body with
  | none =>
      rw [parseBody, hbody]
      refine throw_keeps (hbad ?_) _
      rintro timeout ⟨body, hsome, -⟩
      rw [hbody] at hsome
      cases hsome
  | some body =>
      have hthrown : ∀ e, joinMode body = .throw e ∨ s.joinTimeout body = .throw e → why calls := by
        intro e he
        apply hbad
        rintro timeout ⟨other, hsome, hmode, htimeout⟩
        rw [hbody] at hsome
        cases hsome
        rcases he with he | he
        · rw [he] at hmode
          cases hmode
        · have hsame : s.joinTimeout body = pure timeout := htimeout
          rw [he] at hsame
          cases hsame
      rw [parseBody, hbody]
      change s.Keeps parse why calls (joinMode body >>= _)
      rcases joinMode_cases body with ⟨e, he⟩ | hmode
      · rw [he]
        exact throw_keeps (hthrown e (Or.inl he)) _
      · rw [hmode]
        change s.Keeps parse why calls (s.joinTimeout body >>= _)
        rcases s.joinTimeout_cases body with ⟨e, he⟩ | ⟨timeout, htimeout⟩
        · rw [he]
          exact throw_keeps (hthrown e (Or.inr he)) _
        · rw [htimeout]
          exact hf timeout ⟨body, hbody, hmode, htimeout⟩

theorem register_keeps (hclean : ∀ call ∈ calls, call.1.Harmless) (hat : s.req.At .post "/api/auth/register") :
    s.Keeps parse why calls (s.register parse) := by
  apply tryCatch_keeps fun more =>
    Untouched more ∧ ∀ username password, ¬ s.req.Names parse username password
  · apply names_keeps fun hno => ⟨untouched_of_harmless hclean, hno⟩
    intro username password hnames
    refine Permits.request_bind ⟨trivial, fun _ h => by cases h⟩ ?_
    intro user
    cases user with
    | error e =>
        refine fail_keeps (.registerRefused hat hnames List.mem_concat_self) ?_
        exact (untouched_of_harmless hclean).concat fun hc => by cases hc
    | ok user =>
        refine Permits.request_bind ⟨Or.inl ⟨username, password, by simp⟩, fun _ h => by cases h⟩ ?_
        intro ensured
        exact succeed_keeps (.registered hat hnames (List.mem_append_left _ List.mem_concat_self))
  · intro _ _ hreason
    exact fail_keeps_of_target fun hvalid => ⟨.badBody (Or.inl hat) (hreason hvalid).2, (hreason hvalid).1⟩

def Garbled (parse : Bytes → Option Json) (req : Request) (calls : List (Sigma HttpCall.Answer)) : Prop :=
  ∃ username password ip session, req.Names parse username password ∧ ⟨.remoteIp, ip⟩ ∈ calls ∧
    ⟨.login username password ip, .ok session⟩ ∈ calls ∧ ¬ validUtf8 session.token

theorem Garbled.untouched {req : Request} (h : Garbled parse req calls) : Untouched calls := by
  obtain ⟨username, password, ip, session, -, -, hcall, htoken⟩ := h
  exact Or.inr ⟨username, password, ip, session, hcall, htoken⟩

theorem login_keeps (hclean : ∀ call ∈ calls, call.1.Harmless) (hat : s.req.At .post "/api/auth/login") :
    s.Keeps parse why calls (s.login parse) := by
  apply tryCatch_keeps fun more =>
    (Untouched more ∧ ∀ username password, ¬ s.req.Names parse username password) ∨ Garbled parse s.req more
  · apply names_keeps fun hno => Or.inl ⟨untouched_of_harmless hclean, hno⟩
    intro username password hnames
    apply ask_keeps .remoteIp trivial
    intro ip
    have hclean' := harmless_concat hclean .remoteIp trivial ip
    refine Permits.request_bind ⟨trivial, fun _ h => by cases h⟩ ?_
    intro session
    cases session with
    | error e =>
        refine fail_keeps (.loginRefused hat hnames (by simp) List.mem_concat_self) ?_
        exact (untouched_of_harmless hclean').concat fun hc => by cases hc
    | ok session =>
        refine Permits.request_bind ⟨Or.inr ⟨username, password, ip, session, by simp, rfl⟩, fun _ h => by cases h⟩ ?_
        intro ensured
        by_cases htoken : validUtf8 session.token
        · rw [dumped, dif_pos htoken]
          exact succeed_keeps (.loggedIn hat hnames (by simp) (List.mem_append_left _ List.mem_concat_self) rfl)
        · rw [dumped, dif_neg htoken]
          exact throw_keeps (Or.inr ⟨username, password, ip, session, hnames, by simp, by simp, htoken⟩) _
  · intro _ _ hreason
    apply fail_keeps_of_target
    intro hvalid
    rcases hreason hvalid with ⟨hun, hno⟩ | hgarbled
    · exact ⟨.badBody (Or.inr hat) hno, hun⟩
    · have hun := hgarbled.untouched
      obtain ⟨username, password, ip, session, hnames, hip, hcall, htoken⟩ := hgarbled
      exact ⟨.badToken hat hnames hip hcall htoken, hun⟩

theorem logout_keeps (hclean : ∀ call ∈ calls, call.1.Harmless) (hat : s.req.At .post "/api/auth/logout") :
    s.Keeps parse why calls s.logout := by
  apply authenticated_keeps hclean hat (by simp [protectedEndpoints])
  intro session hvalid
  apply act_keeps hvalid (.logout session.token) trivial rfl
  intro answer
  exact succeed_keeps (.loggedOut hat (List.mem_append_left _ hvalid) List.mem_concat_self)

theorem queueJoin_keeps (hclean : ∀ call ∈ calls, call.1.Harmless) (hat : s.req.At .post "/api/queue/join") :
    s.Keeps parse why calls (s.queueJoin parse) := by
  apply authenticated_keeps hclean hat (by simp [protectedEndpoints])
  intro session hvalid
  have hun := untouched_proved hclean s.req.bearer session
  apply tryCatch_keeps fun more => Untouched more ∧ ⟨.validateToken s.req.bearer, some session⟩ ∈ more ∧
    ∀ timeout, ¬ s.req.Asks parse s.config timeout
  · apply asks_keeps fun hno => ⟨hun, hvalid, hno⟩
    intro timeout hasks
    apply act_keeps hvalid (.join session.user timeout) trivial rfl
    intro joined
    cases joined with
    | error e =>
        refine fail_keeps (.joinRefused hat (List.mem_append_left _ hvalid) hasks List.mem_concat_self) ?_
        exact hun.concat fun hc => by cases hc
    | ok _ =>
        apply ask_keeps .systemClock trivial
        intro now
        exact succeed_keeps (@Contract.joined _ _ _ _ session _ now hat (by simp) hasks (by simp) (by simp))
  · intro _ _ hreason
    apply fail_keeps_of_target
    intro htarget
    obtain ⟨huntouched, hproved, hno⟩ := hreason htarget
    exact ⟨.joinBody hat hproved hno, huntouched⟩

theorem queueCancel_keeps (hclean : ∀ call ∈ calls, call.1.Harmless) (hat : s.req.At .post "/api/queue/cancel") :
    s.Keeps parse why calls s.queueCancel := by
  apply authenticated_keeps hclean hat (by simp [protectedEndpoints])
  intro session hvalid
  apply act_keeps hvalid (.cancel session.user.userId) trivial rfl
  intro canceled
  cases canceled with
  | error e =>
      refine fail_keeps (.cancelRefused hat (List.mem_append_left _ hvalid) List.mem_concat_self) ?_
      exact (untouched_proved hclean s.req.bearer session).concat fun hc => by cases hc
  | ok _ =>
      exact succeed_keeps (.canceled hat (List.mem_append_left _ hvalid) List.mem_concat_self)

theorem profile_keeps (hclean : ∀ call ∈ calls, call.1.Harmless) (hat : s.req.At .get "/api/profile") :
    s.Keeps parse why calls s.profile := by
  apply authenticated_keeps hclean hat (by simp [protectedEndpoints])
  intro session hvalid
  apply act_keeps hvalid (.getSummary session.user.userId) trivial rfl
  intro summary
  exact succeed_keeps (.profile hat (List.mem_append_left _ hvalid) List.mem_concat_self)

theorem metrics_keeps (hat : s.req.At .get "/metrics") : s.Keeps parse why calls s.metrics := by
  apply ask_keeps .activeSessionCount trivial
  intro active
  apply ask_keeps .queueLength trivial
  intro queued
  apply ask_keeps .loadRequestTotal trivial
  intro total
  apply ask_keeps .loadRequestErrors trivial
  intro errors
  apply ask_keeps .loadWebsocketActive trivial
  intro websocket
  exact succeed_keeps (.metrics hat (by simp) (by simp) (by simp) (by simp) (by simp))

theorem opsStatus_keeps (hclean : ∀ call ∈ calls, call.1.Harmless) (hat : s.req.At .get "/ops/status") :
    s.Keeps parse why calls s.opsStatus := by
  simp only [opsStatus]
  split
  next hdenied =>
    refine fail_keeps (.opsDenied hat ?_) (untouched_of_harmless hclean)
    refine hdenied.imp_right ?_
    intro hne heq
    rw [heq] at hne
    exact hne rfl
  next hgranted =>
    obtain ⟨hset, htoken⟩ := not_or.mp hgranted
    have hsome : s.req.opsToken = some s.config.opsToken := by
      cases hheader : s.req.opsToken with
      | none =>
          rw [hheader] at htoken
          exact absurd (not_not.mp htoken).symm hset
      | some token =>
          rw [hheader] at htoken
          exact congrArg some (not_not.mp htoken)
    apply ask_keeps .activeSessionCount trivial
    intro active
    apply ask_keeps .queueLength trivial
    intro queued
    apply ask_keeps .loadRequestTotal trivial
    intro total
    apply ask_keeps .loadRequestErrors trivial
    intro errors
    apply ask_keeps .loadWebsocketActive trivial
    intro websocket
    exact succeed_keeps (.opsStatus hat hset hsome (by simp) (by simp) (by simp) (by simp))

theorem leaderboard_keeps (hclean : ∀ call ∈ calls, call.1.Harmless) (hat : s.req.At .get "/api/leaderboard") :
    s.Keeps parse why calls (s.leaderboard s.req.query) := by
  obtain ⟨page, size, invalid, hquery⟩ : ∃ page size invalid, requestedPage s.req.query = (page, size, invalid) :=
    ⟨_, _, _, rfl⟩
  have hcases : s.leaderboard s.req.query = if invalid then
        s.fail 400 ⟨"leaderboard_range", "page 또는 size 값이 허용 범위를 벗어났습니다"⟩
      else (ask (.getLeaderboard page size) >>= fun pageData =>
        s.succeed 200 (leaderboardJson page size pageData)) := by
    cases hquery
    rfl
  rw [hcases]
  cases invalid with
  | true => exact fail_keeps (.leaderboardRange hat hquery) (untouched_of_harmless hclean)
  | false =>
      apply ask_keeps (.getLeaderboard page size) trivial
      intro pageData
      exact succeed_keeps (.leaderboard hat hquery (by simp))

theorem route_keeps (hplain : s.req.upgrade = false) (hclean : ∀ call ∈ calls, call.1.Harmless) :
    s.Keeps parse why calls (s.route parse) := by
  have hnotFound (hno : ∀ e ∈ endpoints, ¬ s.req.At e.1 e.2) :
      s.Keeps parse why calls (s.fail 404 ⟨"not_found", "지원되지 않는 경로입니다"⟩) :=
    fail_keeps (.notFound hplain hno) (untouched_of_harmless hclean)
  simp only [route]
  cases hverb : s.req.method with
  | other name =>
      apply hnotFound
      simp [endpoints, Request.At, hverb]
  | get =>
      dsimp only
      split
      next hpath => exact succeed_keeps (.health ⟨hplain, hverb, hpath⟩)
      next hhealth =>
        split
        next hpath => exact metrics_keeps ⟨hplain, hverb, hpath⟩
        next hmetrics =>
          split
          next hpath => exact opsStatus_keeps hclean ⟨hplain, hverb, hpath⟩
          next hops =>
            split
            next hpath => exact leaderboard_keeps hclean ⟨hplain, hverb, hpath⟩
            next hleaderboard =>
              split
              next hpath => exact profile_keeps hclean ⟨hplain, hverb, hpath⟩
              next hprofile =>
                apply hnotFound
                simp [endpoints, Request.At, Request.path, hverb, hhealth, hmetrics, hops, hleaderboard, hprofile]
  | post =>
      dsimp only
      split
      next hpath => exact register_keeps hclean ⟨hplain, hverb, hpath⟩
      next hregister =>
        split
        next hpath => exact login_keeps hclean ⟨hplain, hverb, hpath⟩
        next hlogin =>
          split
          next hpath => exact logout_keeps hclean ⟨hplain, hverb, hpath⟩
          next hlogout =>
            split
            next hpath => exact queueJoin_keeps hclean ⟨hplain, hverb, hpath⟩
            next hjoin =>
              split
              next hpath => exact queueCancel_keeps hclean ⟨hplain, hverb, hpath⟩
              next hcancel =>
                apply hnotFound
                simp [endpoints, Request.At, Request.path, hverb, hregister, hlogin, hlogout, hjoin, hcancel]

theorem denyUpgrade_keeps (hupgrade : s.req.upgrade = true)
    (hun : Unproved s.req calls) (huntouched : Untouched calls) :
    s.Keeps parse why calls s.denyUpgrade := by
  apply ask_keeps .systemClock trivial
  intro now
  apply sendResponse_keeps
  intro _ more hmore
  rw [List.append_assoc]
  have hharmless : ∀ call ∈ [⟨.systemClock, now⟩] ++ more, call.1.Harmless := by
    simpa [HttpCall.Harmless] using hmore
  exact ⟨.error _, now, rfl, .upgradeDenied hupgrade (hun.append hharmless), fun _ _ =>
    huntouched.append fun call hcall => (hharmless call hcall).unchanged call.2⟩

/-- Whatever the services answer, a request only acts for the user of the token
in its header, after it has been found valid, and it reports what it has done.
No exception comes out of it while its target can be logged. -/
theorem onRead_keeps (parse : Bytes → Option Json) (s : HttpSession) :
    s.Keeps parse (fun _ => False) [] (s.onRead parse) := by
  rw [onRead]
  split
  next hupgrade =>
    apply authenticate_keeps (by simp)
    · intro more hmore hun
      exact denyUpgrade_keeps hupgrade hun (Or.inl (by simpa using hmore))
    · intro session
      refine Permits.request ⟨⟨session, by simp, rfl⟩, fun _ h => by cases h⟩ ?_
      intro answer e he
      cases he
  next hplain =>
    apply ask_keeps .steadyClock trivial
    intro requestStart
    apply ask_keeps .nextTraceId trivial
    intro traceId
    apply ask_keeps .incrementRequest trivial
    intro counted
    apply route_keeps (s := s.started requestStart traceId) (Bool.eq_false_iff.mpr hplain)
    simp [HttpCall.Harmless]

end HttpSession

end GameServer
