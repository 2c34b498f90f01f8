import GameServer.Http

namespace GameServer

def responseOf : HttpCall → Option Response
  | .asyncWrite res => some res
  | _ => none

def HttpCall.refusal : (call : HttpCall) → call.Answer
  | .steadyClock | .systemClock => (0 : Int)
  | .nextTraceId | .remoteIp => ""
  | .loadRequestTotal | .loadRequestErrors | .loadWebsocketActive | .activeSessionCount | .queueLength => (0 : UInt64)
  | .registerUser .. | .login .. | .join .. | .cancel .. => .error ⟨"", ""⟩
  | .logout .. => false
  | .validateToken .. | .getSummary .. => none
  | .getLeaderboard .. => ⟨0, []⟩
  | .incrementRequest | .incrementError | .print .. | .ensureUser .. | .asyncWrite .. | .accept .. => ()

def HttpCall.Sending : HttpCall → Prop
  | .steadyClock | .systemClock | .incrementError | .print _ | .asyncWrite _ => True
  | _ => False

open Program

theorem dumped_of_valid {b : Bytes} (h : validUtf8 b) : ∃ text, dumped b = Program.pure text :=
  ⟨_, dif_pos h⟩

theorem dumped_of_not {b : Bytes} (h : ¬ validUtf8 b) : dumped b = .throw .typeError := dif_neg h

theorem dumped_silent (b : Bytes) : (dumped b).Silent responseOf := by
  by_cases h : validUtf8 b
  · obtain ⟨text, htext⟩ := dumped_of_valid h
    rw [htext]
    exact (Quiet.pure text).silent
  · rw [dumped_of_not h]
    exact .throw _

theorem quiet_ask {call : HttpCall} (h : responseOf call = none) : (ask call).Quiet responseOf :=
  Quiet.request h

theorem snapshot_quiet (activeSessions queueLength : UInt64) :
    (Observability.snapshot activeSessions queueLength).Quiet responseOf :=
  Quiet.bind (quiet_ask rfl) fun _ => Quiet.bind (quiet_ask rfl) fun _ =>
    Quiet.bind (quiet_ask rfl) fun _ => Quiet.pure _

theorem log_quiet {ctx : LogContext} (h : validUtf8 ctx.name) : (Observability.log ctx).Quiet responseOf := by
  obtain ⟨text, htext⟩ := dumped_of_valid h
  rw [Observability.log, htext]
  exact Quiet.bind (Quiet.pure text) fun _ => quiet_ask rfl

theorem log_of_not {ctx : LogContext} (h : ¬ validUtf8 ctx.name) : Observability.log ctx = .throw .typeError := by
  rw [Observability.log, dumped_of_not h]
  rfl

namespace HttpSession

variable {parse : Bytes → Option Json} {s : HttpSession} {R : Response → Prop}

theorem recordError_quiet (res : Response) : (recordError res).Quiet responseOf := by
  rw [recordError]
  split
  · exact quiet_ask rfl
  · exact Quiet.pure ()

theorem extractAuthSession_quiet (s : HttpSession) {ρ : Type} {emit : HttpCall → Option ρ}
    (h : ∀ token, emit (.validateToken token) = none) : s.extractAuthSession.Quiet emit := by
  rw [extractAuthSession]
  split
  · exact Quiet.pure none
  · dsimp only
    split
    · exact Quiet.pure none
    · exact Quiet.request (h _)

/-- The log line is made before the response is sent. -/
theorem sendResponse_emitsOne {res : Response} (h : R res) :
    (s.sendResponse res).EmitsOne responseOf (validUtf8 s.req.target) R := by
  apply EmitsOne.bind (recordError_quiet res)
  intro _
  apply EmitsOne.bind (quiet_ask rfl)
  intro now
  by_cases hvalid : validUtf8 s.req.target
  · exact EmitsOne.bind (log_quiet hvalid) fun _ => EmitsOne.request rfl hvalid h
  · rw [log_of_not hvalid]
    exact EmitsOne.throw hvalid _

theorem succeed_emitsOne {status : Nat} {data : Json}
    (h : ∀ now, R ⟨status, some "codex-gameserver", envelope true data .null now⟩) :
    (s.succeed status data).EmitsOne responseOf (validUtf8 s.req.target) R :=
  EmitsOne.call rfl fun now => sendResponse_emitsOne (h now)

theorem fail_emitsOne {status : Nat} {e : Error}
    (h : ∀ now, R ⟨status, some "codex-gameserver", envelope false .null (errorJson e) now⟩) :
    (s.fail status e).EmitsOne responseOf (validUtf8 s.req.target) R :=
  EmitsOne.call rfl fun now => sendResponse_emitsOne (h now)

section Silent

variable {ρ : Type} {emit : HttpCall → Option ρ} (h : ∀ call, HttpCall.Sending call → emit call = none)

include h

theorem log_silent (ctx : LogContext) : (Observability.log ctx).Silent emit := by
  rw [Observability.log, dumped]
  split
  · exact Silent.bind (Quiet.pure _).silent fun text => (Quiet.request (h (.print _) trivial)).silent
  · exact Ensures.throw rfl

theorem sendResponse_silent (res : Response) : (s.sendResponse res).Silent emit := by
  have hask : ∀ call, HttpCall.Sending call → (ask call).Silent emit :=
    fun call hcall => (Quiet.request (h call hcall)).silent
  have hrecord : (recordError res).Silent emit := by
    rw [recordError]
    split
    · exact hask _ trivial
    · exact (Quiet.pure ()).silent
  apply Silent.bind hrecord
  intro _
  apply Silent.bind (hask .steadyClock trivial)
  intro now
  apply Silent.bind (log_silent h _)
  intro _
  exact hask (.asyncWrite res) trivial

theorem succeed_silent (status : Nat) (data : Json) : (s.succeed status data).Silent emit :=
  Silent.bind (Quiet.bind (Quiet.request (h .systemClock trivial)) fun _ => Quiet.pure _).silent fun _ =>
    sendResponse_silent h _

theorem fail_silent (status : Nat) (e : Error) : (s.fail status e).Silent emit :=
  Silent.bind (Quiet.bind (Quiet.request (h .systemClock trivial)) fun _ => Quiet.pure _).silent fun _ =>
    sendResponse_silent h _

end Silent

abbrev Responds (s : HttpSession) (p : Handler Unit) : Prop :=
  p.EmitsOne responseOf (validUtf8 s.req.target) fun _ => True

theorem succeed_responds (status : Nat) (data : Json) : s.Responds (s.succeed status data) :=
  succeed_emitsOne fun _ => trivial

theorem fail_responds (status : Nat) (e : Error) : s.Responds (s.fail status e) := fail_emitsOne fun _ => trivial

theorem authenticated_responds {handle : AuthSession → Handler Unit} (h : ∀ session, s.Responds (handle session)) :
    s.Responds (s.authenticated handle) := by
  apply EmitsOne.bind (s.extractAuthSession_quiet fun _ => rfl)
  intro session
  cases session with
  | none => exact fail_responds _ _
  | some session => exact h session

theorem parseBody_silent : (s.parseBody parse).Silent responseOf := by
  rw [parseBody]
  split
  · exact .throw _
  · exact (Quiet.pure _).silent

theorem credentials_silent (body : Json) : (credentials body).Silent responseOf := by
  rw [credentials]
  split
  · split
    · exact (Quiet.pure _).silent
    · exact .throw _
  · exact .throw _

theorem credentials_cases (body : Json) :
    (∃ e, credentials body = .throw e) ∨ ∃ named, credentials body = pure named := by
  rw [credentials]
  split
  · split
    · exact Or.inr ⟨_, rfl⟩
    · exact Or.inl ⟨_, rfl⟩
  · exact Or.inl ⟨_, rfl⟩

theorem joinMode_cases (body : Json) : (∃ e, joinMode body = .throw e) ∨ joinMode body = pure "normal" := by
  rw [joinMode]
  split
  · exact Or.inl ⟨_, rfl⟩
  · split
    · split
      next => exact Or.inl ⟨_, rfl⟩
      next hmode =>
        rw [not_ne_iff.mp hmode]
        exact Or.inr rfl
    · exact Or.inl ⟨_, rfl⟩

theorem joinTimeout_cases (s : HttpSession) (body : Json) :
    (∃ e, s.joinTimeout body = .throw e) ∨ ∃ timeout, s.joinTimeout body = pure timeout := by
  rw [joinTimeout]
  split
  · exact Or.inr ⟨_, rfl⟩
  · split
    · exact Or.inr ⟨_, rfl⟩
    · exact Or.inl ⟨_, rfl⟩

theorem joinMode_silent (body : Json) : (joinMode body).Silent responseOf := by
  rw [joinMode]
  split
  · exact .throw _
  · split
    · split
      · exact .throw _
      · exact (Quiet.pure _).silent
    · exact .throw _

theorem joinTimeout_silent (body : Json) : (s.joinTimeout body).Silent responseOf := by
  rw [joinTimeout]
  split
  · exact (Quiet.pure _).silent
  · split
    · exact (Quiet.pure _).silent
    · exact .throw _

theorem metrics_responds : s.Responds s.metrics :=
  EmitsOne.bind (quiet_ask rfl) fun _ => EmitsOne.bind (quiet_ask rfl) fun _ =>
    EmitsOne.bind (snapshot_quiet _ _) fun _ => succeed_responds _ _

theorem opsStatus_responds : s.Responds s.opsStatus := by
  simp only [opsStatus]
  split
  · exact fail_responds _ _
  · exact EmitsOne.bind (quiet_ask rfl) fun _ => EmitsOne.bind (quiet_ask rfl) fun _ =>
      EmitsOne.bind (snapshot_quiet _ _) fun _ => succeed_responds _ _

theorem register_responds : s.Responds (s.register parse) := by
  refine EmitsOne.tryCatch ?_ fun _ => fail_responds _ _
  apply TriesOne.bind parseBody_silent
  intro body
  apply TriesOne.bind (credentials_silent body)
  rintro ⟨username, password⟩
  apply EmitsOne.tries
  apply EmitsOne.bind (quiet_ask rfl)
  intro user
  cases user with
  | error e => exact fail_responds _ e
  | ok user => exact EmitsOne.bind (quiet_ask rfl) fun _ => succeed_responds _ _

theorem login_responds : s.Responds (s.login parse) := by
  refine EmitsOne.tryCatch ?_ fun _ => fail_responds _ _
  apply TriesOne.bind parseBody_silent
  intro body
  apply TriesOne.bind (credentials_silent body)
  rintro ⟨username, password⟩
  apply TriesOne.bind (quiet_ask rfl).silent
  intro ip
  apply TriesOne.bind (quiet_ask rfl).silent
  intro session
  cases session with
  | error e => exact (fail_responds _ e).tries
  | ok session =>
      apply TriesOne.bind (quiet_ask rfl).silent
      intro _
      apply TriesOne.bind (dumped_silent session.token)
      intro token
      exact (succeed_responds _ _).tries

theorem logout_responds : s.Responds s.logout :=
  authenticated_responds fun _ => EmitsOne.bind (quiet_ask rfl) fun _ => succeed_responds _ _

theorem queueJoin_responds : s.Responds (s.queueJoin parse) := by
  apply authenticated_responds
  intro session
  refine EmitsOne.tryCatch ?_ fun _ => fail_responds _ _
  apply TriesOne.bind parseBody_silent
  intro body
  apply TriesOne.bind (joinMode_silent body)
  intro mode
  apply TriesOne.bind (joinTimeout_silent body)
  intro timeout
  apply EmitsOne.tries
  apply EmitsOne.bind (quiet_ask rfl)
  intro joined
  cases joined with
  | error e => exact fail_responds _ e
  | ok _ => exact EmitsOne.bind (quiet_ask rfl) fun _ => succeed_responds _ _

theorem queueCancel_responds : s.Responds s.queueCancel := by
  apply authenticated_responds
  intro session
  apply EmitsOne.bind (quiet_ask rfl)
  intro canceled
  cases canceled with
  | error e => exact fail_responds _ e
  | ok _ => exact succeed_responds _ _

theorem leaderboard_responds (query : Bytes) : s.Responds (s.leaderboard query) := by
  simp only [leaderboard]
  split
  · exact fail_responds _ _
  · exact EmitsOne.bind (quiet_ask rfl) fun _ => succeed_responds _ _

theorem profile_responds : s.Responds s.profile :=
  authenticated_responds fun _ => EmitsOne.bind (quiet_ask rfl) fun _ => succeed_responds _ _

theorem route_responds : s.Responds (s.route parse) := by
  have hnotFound := fail_responds (s := s) 404 ⟨"not_found", "지원되지 않는 경로입니다"⟩
  simp only [route]
  cases s.req.method with
  | other => exact hnotFound
  | get =>
      dsimp only
      repeat' split
      exacts [succeed_responds _ _, metrics_responds, opsStatus_responds, leaderboard_responds _, profile_responds,
        hnotFound]
  | post =>
      dsimp only
      repeat' split
      exacts [register_responds, login_responds, logout_responds, queueJoin_responds, queueCancel_responds,
        hnotFound]

theorem handleRequest_emitsOne {ok : Prop} {R : Response → Prop}
    (h : ∀ requestStart traceId, ((s.started requestStart traceId).route parse).EmitsOne responseOf ok R) :
    (s.handleRequest parse).EmitsOne responseOf ok R := by
  apply EmitsOne.bind (quiet_ask rfl)
  intro requestStart
  apply EmitsOne.bind (quiet_ask rfl)
  intro traceId
  apply EmitsOne.bind (quiet_ask rfl)
  intro _
  exact h requestStart traceId

theorem handleRequest_responds : s.Responds (s.handleRequest parse) := by
  apply handleRequest_emitsOne
  intro requestStart traceId
  exact route_responds (s := s.started requestStart traceId)

theorem denyUpgrade_responds : s.Responds s.denyUpgrade := EmitsOne.call rfl fun _ => sendResponse_emitsOne trivial

def Answered (calls : List (Sigma HttpCall.Answer)) (out : Except Exn Unit) : Prop :=
  (∃ res, emitted responseOf calls = [res]) ∧ out = .ok ()

theorem ensures_answered_iff {p : Handler Unit} (h : s.Responds p) :
    p.Ensures Answered ↔ validUtf8 s.req.target := by
  rw [← h.ensures_iff HttpCall.refusal]
  constructor
  · intro ha
    refine ha.mono ?_
    rintro calls out ⟨⟨res, hres⟩, hout⟩
    exact ⟨⟨res, hres, trivial⟩, (), hout⟩
  · intro ha
    refine ha.mono ?_
    rintro calls out ⟨⟨res, hres, -⟩, ⟨⟨⟩, hout⟩⟩
    exact ⟨⟨res, hres⟩, hout⟩

/-- For all but the connections that are handed over: every run of the handler
sends its one response exactly when the target is valid. -/
theorem answered_iff (parse : Bytes → Option Json) (s : HttpSession) :
    ((s.handleRequest parse).Ensures Answered ↔ validUtf8 s.req.target) ∧
      (s.denyUpgrade.Ensures Answered ↔ validUtf8 s.req.target) :=
  ⟨ensures_answered_iff handleRequest_responds, ensures_answered_iff denyUpgrade_responds⟩

def strayByte : HttpSession := ⟨⟨10, []⟩, { method := .get, target := [47, 255] }, "", 0⟩

/-- The response is not sent and the exception of the log line comes out. -/
theorem not_answered_of_stray : (∃ calls, (strayByte.handleRequest fun _ => none).Runs calls (.error .typeError) ∧
      emitted responseOf calls = []) ∧
    ¬ (strayByte.handleRequest fun _ => none).Ensures Answered := by
  have hrun := runs_replay HttpCall.refusal (strayByte.handleRequest fun _ => none)
  have hout : ((strayByte.handleRequest fun _ => none).replay HttpCall.refusal).2 = .error .typeError := by decide
  have hnone : emitted responseOf ((strayByte.handleRequest fun _ => none).replay HttpCall.refusal).1 = [] := by
    rfl
  rw [hout] at hrun
  refine ⟨⟨_, hrun, hnone⟩, ?_⟩
  intro h
  obtain ⟨-, hok⟩ := h _ _ hrun
  cases hok

end HttpSession

end GameServer
