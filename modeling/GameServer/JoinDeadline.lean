import GameServer.QueueCalls
import GameServer.Responses

namespace GameServer

open Clock MatchQueue Program

namespace Clock

theorem addSeconds_eq_iff {now : Int} (h : FitsClock now) (seconds : Nat) :
    addSeconds now (wrap64 seconds) = now + seconds * 1000000000 ↔ now + seconds * 1000000000 < 2 ^ 63 := by
  rw [addSeconds_wrap64, wrap64_eq_self_iff, FitsClock]
  have hlow := h.1
  omega

end Clock

/-- The deadline asked for is the one that is enforced and the one that is
told. -/
structure KeepsDeadline (seconds : Nat) (node : QueueNode) (joinedAt now told : Int) : Prop where
  enforced : node.entry.expiresAt = joinedAt + seconds * 1000000000
  told : told = now + seconds * 1000000000
  patient : ∀ (q : MatchQueue) (t : Int), node ∈ q.queue → t < joinedAt + seconds * 1000000000 →
    node ∈ (q.handleTimeouts t).1.queue

theorem keepsDeadline_of_eq {seconds : Nat} {node : QueueNode} {joinedAt now told : Int}
    (henforced : node.entry.expiresAt = joinedAt + seconds * 1000000000) (htold : told = now + seconds * 1000000000) :
    KeepsDeadline seconds node joinedAt now told := by
  refine ⟨henforced, htold, ?_⟩
  intro q t hn ht
  rw [(handleTimeouts_queue q t).1, List.mem_filter]
  exact ⟨hn, decide_eq_true (henforced ▸ ht)⟩

theorem join_node {queue queue' : MatchQueueService} {defaultTimeout timeout joinedAt : Int} {user : AuthUser}
    {inSession : Bool} (h : queue.join defaultTimeout user timeout inSession joinedAt = .ok queue') :
    ∃ node, queue'.queue.queue = queue.queue.queue ++ [node] ∧
      node.entry.expiresAt = addSeconds joinedAt (if timeout ≤ 0 then defaultTimeout else timeout) := by
  rw [MatchQueueService.join] at h
  split at h
  next => cases h
  next =>
    cases h
    exact ⟨_, rfl, rfl⟩

namespace HttpSession

variable {parse : Bytes → Option Json} {s : HttpSession}

def askedSeconds (s : HttpSession) (body : Json) : Nat :=
  match body.find "timeoutSeconds" with
  | none => s.config.matchQueueTimeoutSeconds.toNat
  | some timeout =>
    if timeout.getUInt64 = 0 then s.config.matchQueueTimeoutSeconds.toNat else timeout.getUInt64

def NotZero (body : Json) : Prop := ∀ timeout, body.find "timeoutSeconds" = some timeout → timeout.getUInt64 ≠ 0

theorem askedSeconds_pos (hdefault : 0 < s.config.matchQueueTimeoutSeconds) (body : Json) :
    0 < s.askedSeconds body := by
  have hpos : 0 < s.config.matchQueueTimeoutSeconds.toNat := hdefault
  rw [askedSeconds]
  split
  · exact hpos
  · split
    · exact hpos
    · omega

theorem timeout_of_notZero {body : Json} {timeout : Int} (h : s.joinTimeout body = pure timeout)
    (hzero : NotZero body) : timeout = wrap64 (s.askedSeconds body) := by
  rw [joinTimeout] at h
  rw [askedSeconds]
  cases hfind : body.find "timeoutSeconds" with
  | none =>
      rw [hfind] at h
      exact (Program.pure.inj h).symm
  | some value =>
      rw [hfind] at h
      dsimp only at h ⊢
      rw [if_neg (hzero value hfind)]
      split at h
      · exact (Program.pure.inj h).symm
      · cases h

theorem timeout_of_zero {body : Json} {timeout : Int} (h : s.joinTimeout body = pure timeout) (hzero : ¬ NotZero body) :
    timeout = 0 := by
  simp only [NotZero, not_forall, not_not] at hzero
  obtain ⟨value, hfind, hvalue⟩ := hzero
  rw [joinTimeout, hfind] at h
  dsimp only at h
  split at h
  · rw [hvalue] at h
    cases h
    rfl
  · cases h

theorem keepsDeadline_of_timeout (hdefault : 0 < s.config.matchQueueTimeoutSeconds) {body : Json} {timeout : Int}
    (ht : s.joinTimeout body = pure timeout) {joinedAt now : Int} (hj : FitsClock joinedAt) (hn : FitsClock now)
    {node : QueueNode} (hnode : node.entry.expiresAt = addSeconds joinedAt
      (if timeout ≤ 0 then wrap64 s.config.matchQueueTimeoutSeconds.toNat else timeout)) :
    KeepsDeadline (s.askedSeconds body) node joinedAt now (addSeconds now timeout) ↔
      NotZero body ∧ joinedAt + s.askedSeconds body * 1000000000 < 2 ^ 63 ∧
        now + s.askedSeconds body * 1000000000 < 2 ^ 63 := by
  have hpos := s.askedSeconds_pos hdefault body
  by_cases hzero : NotZero body
  · have htimeout := s.timeout_of_notZero ht hzero
    have htold := addSeconds_eq_iff hn (s.askedSeconds body)
    have hlow := hn.1
    have hplain : now + s.askedSeconds body * 1000000000 < 2 ^ 63 → node.entry.expiresAt =
        addSeconds joinedAt (wrap64 (s.askedSeconds body)) := by
      intro hsmall
      have hfits : wrap64 (s.askedSeconds body) = s.askedSeconds body :=
        (wrap64_eq_self_iff _).mpr ⟨by omega, by omega⟩
      rw [hnode, htimeout, if_neg (by rw [hfits]; omega)]
    rw [htimeout]
    constructor
    · intro h
      have hsmall := htold.mp h.told
      have henforced := h.enforced
      rw [hplain hsmall] at henforced
      exact ⟨hzero, (addSeconds_eq_iff hj _).mp henforced, hsmall⟩
    · rintro ⟨-, hjoin, hsmall⟩
      exact keepsDeadline_of_eq ((hplain hsmall).trans ((addSeconds_eq_iff hj _).mpr hjoin)) (htold.mpr hsmall)
  · -- the client is told the instant of the response itself
    have htold : addSeconds now timeout = now := by
      calc
        addSeconds now timeout = addSeconds now (wrap64 0) := by rw [s.timeout_of_zero ht hzero]; rfl
        _ = wrap64 (now + 0 * 1000000000) := addSeconds_wrap64 now 0
        _ = now := by rw [Int.zero_mul, Int.add_zero, (wrap64_eq_self_iff now).mpr hn]
    constructor
    · intro h
      have hnow := h.told
      omega
    · rintro ⟨h, -⟩
      exact absurd h hzero

def joinOf : HttpCall → Option (AuthUser × Int)
  | .join user timeout => some (user, timeout)
  | _ => none

theorem joinOf_sending (call : HttpCall) (h : call.Sending) : joinOf call = none := by
  cases call with
  | join => exact h.elim
  | _ => rfl

theorem not_joined_of_silent {calls : List (Sigma HttpCall.Answer)} (h : emitted joinOf calls = []) (user : AuthUser)
    (timeout : Int) (answer : Except Error Unit) : ⟨.join user timeout, answer⟩ ∉ calls := by
  intro hmem
  have hin : (user, timeout) ∈ emitted joinOf calls := List.mem_filterMap.mpr ⟨_, hmem, rfl⟩
  rw [h] at hin
  cases hin

/-- After a Join that is accepted the clock is read once more, and what is sent
is the deadline counted from then. -/
structure Exchange (calls : List (Sigma HttpCall.Answer)) (user : AuthUser) (timeout now : Int) : Prop where
  order : ∃ before after, calls = before ++ ⟨.join user timeout, .ok ()⟩ :: ⟨.systemClock, now⟩ :: after
  reply : ∀ res ∈ emitted responseOf calls, ∃ timestamp, res =
    ⟨200, some "codex-gameserver", envelope true (joinedJson "normal" (addSeconds now timeout)) .null timestamp⟩

def Joins (parse : Bytes → Option Json) (s : HttpSession) (calls : List (Sigma HttpCall.Answer))
    (_ : Except Exn Unit) : Prop :=
  ∀ user timeout, ⟨.join user timeout, .ok ()⟩ ∈ calls → ∃ body now, parse s.req.body = some body ∧
    s.joinTimeout body = pure timeout ∧ Exchange calls user timeout now

theorem joins_of_silent {p : Handler Unit} (h : p.Silent joinOf) : p.Ensures (Joins parse s) :=
  h.mono fun _ _ hcalls user timeout hmem => absurd hmem (not_joined_of_silent hcalls user timeout _)

theorem Joins.prefixed {before calls : List (Sigma HttpCall.Answer)} {out : Except Exn Unit}
    (hj : emitted joinOf before = []) (hr : emitted responseOf before = []) (h : Joins parse s calls out) :
    Joins parse s (before ++ calls) out := by
  intro user timeout hmem
  rcases List.mem_append.mp hmem with hmem | hmem
  · exact absurd hmem (not_joined_of_silent hj user timeout _)
  · obtain ⟨body, now, hbody, htimeout, ⟨first, after, hcalls⟩, hreply⟩ := h user timeout hmem
    refine ⟨body, now, hbody, htimeout, ⟨before ++ first, after, by rw [hcalls, List.append_assoc]⟩, ?_⟩
    rwa [emitted_append, hr]

theorem joins_bind {α : Type} {p : Handler α} {f : α → Handler Unit} (hj : p.Quiet joinOf) (hr : p.Silent responseOf)
    (hf : ∀ value, (f value).Ensures (Joins parse s)) : (p >>= f).Ensures (Joins parse s) := by
  apply Ensures.bind
  intro calls out hrun
  obtain ⟨hcalls, value, rfl⟩ := hj calls out hrun
  exact (hf value).mono fun rest _ h => h.prefixed hcalls (hr calls _ hrun)

theorem joins_of_reply {body : Json} {user : AuthUser} {timeout now : Int} {status : Nat} {e : Error}
    (hbody : parse s.req.body = some body) (ht : s.joinTimeout body = pure timeout) :
    ((s.succeed 200 (joinedJson "normal" (addSeconds now timeout))).tryCatch fun _ => s.fail status e).Ensures
      fun calls out => Joins parse s (⟨.join user timeout, .ok ()⟩ :: ⟨.systemClock, now⟩ :: calls) out := by
  intro calls out hrun
  have hsilent : emitted joinOf calls = [] :=
    Silent.tryCatch (succeed_silent joinOf_sending _ _) (fun _ => fail_silent joinOf_sending _ _) calls out hrun
  have hreply := EmitsOne.tryCatch_same (succeed_emitsOne fun now => ⟨now, rfl⟩)
    (fun _ => fail_responds (s := s) status e) (R := fun res => ∃ timestamp, res =
      ⟨200, some "codex-gameserver", envelope true (joinedJson "normal" (addSeconds now timeout)) .null timestamp⟩)
    calls out hrun
  intro other seconds hmem
  rcases List.mem_cons.mp hmem with hmem | hmem
  · cases hmem
    refine ⟨body, now, hbody, ht, ⟨[], calls, rfl⟩, ?_⟩
    intro res hres
    change res ∈ emitted responseOf calls at hres
    rcases hreply with ⟨-, ⟨r, hr, htold⟩, -⟩ | ⟨-, hr, -⟩
    · rw [hr] at hres
      exact List.mem_singleton.mp hres ▸ htold
    · rw [hr] at hres
      cases hres
  · rcases List.mem_cons.mp hmem with hmem | hmem
    · cases hmem
    · exact absurd hmem (not_joined_of_silent hsilent other seconds _)

theorem queueJoin_joins : (s.queueJoin parse).Ensures (Joins parse s) := by
  have hfail : ∀ status e, (s.fail status e).Ensures (Joins parse s) :=
    fun status e => joins_of_silent (fail_silent joinOf_sending status e)
  apply joins_bind (s.extractAuthSession_quiet fun _ => rfl) (s.extractAuthSession_quiet fun _ => rfl).silent
  intro session
  cases session with
  | none => exact hfail _ _
  | some session =>
      dsimp only
      cases hbody : parse s.req.body with
      | none =>
          rw [parseBody, hbody]
          exact hfail _ _
      | some body =>
          rw [parseBody, hbody]
          change (Program.tryCatch (joinMode body >>= _) _).Ensures _
          rcases joinMode_cases body with ⟨e, hmode⟩ | hmode
          · rw [hmode]
            exact hfail _ _
          · rw [hmode]
            change (Program.tryCatch (s.joinTimeout body >>= _) _).Ensures _
            rcases s.joinTimeout_cases body with ⟨e, htimeout⟩ | ⟨timeout, htimeout⟩
            · rw [htimeout]
              exact hfail _ _
            · rw [htimeout]
              apply Ensures.call
              intro joined
              cases joined with
              | error e =>
                  intro calls out hrun other seconds hmem
                  have hsilent : emitted joinOf calls = [] := Silent.tryCatch (fail_silent joinOf_sending _ e)
                    (fun _ => fail_silent joinOf_sending _ _) calls out hrun
                  rcases List.mem_cons.mp hmem with hmem | hmem
                  · cases hmem
                  · exact absurd hmem (not_joined_of_silent hsilent other seconds _)
              | ok _ =>
                  apply Ensures.call
                  intro now
                  exact joins_of_reply hbody htimeout

theorem route_queueJoin (hmethod : s.req.method = .post)
    (hpath : (splitTarget s.req.target).1 = bytes "/api/queue/join") : s.route parse = s.queueJoin parse := by
  have hregister : bytes "/api/queue/join" ≠ bytes "/api/auth/register" := by decide
  have hlogin : bytes "/api/queue/join" ≠ bytes "/api/auth/login" := by decide
  have hlogout : bytes "/api/queue/join" ≠ bytes "/api/auth/logout" := by decide
  rw [route, hmethod]
  dsimp only
  rw [hpath, if_neg hregister, if_neg hlogin, if_neg hlogout, if_pos rfl]

theorem handleRequest_joins (hmethod : s.req.method = .post)
    (hpath : (splitTarget s.req.target).1 = bytes "/api/queue/join") :
    (s.handleRequest parse).Ensures (Joins parse s) := by
  apply joins_bind (Quiet.request rfl) (Quiet.request rfl).silent
  intro requestStart
  apply joins_bind (Quiet.request rfl) (Quiet.request rfl).silent
  intro traceId
  apply joins_bind (Quiet.request rfl) (Quiet.request rfl).silent
  intro _
  rw [route_queueJoin (s := s.started requestStart traceId) hmethod hpath]
  exact queueJoin_joins (s := s.started requestStart traceId)

/-- In every run in which the queue takes the user in, the deadline of the
entry and the one that is told are as asked for exactly when the request asks
for some time and neither one is past the end of the clock. -/
theorem keepsDeadline_iff (parse : Bytes → Option Json) (s : HttpSession) (hmethod : s.req.method = .post)
    (hpath : (splitTarget s.req.target).1 = bytes "/api/queue/join")
    (hdefault : 0 < s.config.matchQueueTimeoutSeconds) {calls : List (Sigma HttpCall.Answer)} {out : Except Exn Unit}
    (hrun : (s.handleRequest parse).Runs calls out) {user : AuthUser} {timeout : Int}
    (hjoin : ⟨.join user timeout, .ok ()⟩ ∈ calls) :
    ∃ body now, parse s.req.body = some body ∧ Exchange calls user timeout now ∧
      ∀ (queue queue' : MatchQueueService) (inSession : Bool) (joinedAt : Int), FitsClock joinedAt → FitsClock now →
        queue.join (wrap64 s.config.matchQueueTimeoutSeconds.toNat) user timeout inSession joinedAt = .ok queue' →
        ∃ node, queue'.queue.queue = queue.queue.queue ++ [node] ∧
          (KeepsDeadline (s.askedSeconds body) node joinedAt now (addSeconds now timeout) ↔
            NotZero body ∧ joinedAt + s.askedSeconds body * 1000000000 < 2 ^ 63 ∧
              now + s.askedSeconds body * 1000000000 < 2 ^ 63) := by
  obtain ⟨body, now, hbody, htimeout, hexchange⟩ := handleRequest_joins hmethod hpath calls out hrun user timeout hjoin
  refine ⟨body, now, hbody, hexchange, ?_⟩
  intro queue queue' inSession joinedAt hjoinedAt hnow hj
  obtain ⟨node, hqueue, hnode⟩ := join_node hj
  exact ⟨node, hqueue, keepsDeadline_of_timeout hdefault htimeout hjoinedAt hnow hnode⟩

def joinRequest (seconds : String) : HttpSession where
  config := ⟨10, []⟩
  req := {
    method := .post
    target := bytes "/api/queue/join"
    authorization := some (bytes "Bearer 0123")
    body := bytes ("\x7b\"mode\":\"normal\",\"timeoutSeconds\":" ++ seconds ++ "\x7d") }

def joinBody (seconds : UInt64) : Json :=
  .object [("mode", .string "normal"), ("timeoutSeconds", .numberUnsigned seconds)]

theorem joinTimeout_joinBody (s : HttpSession) (seconds : UInt64) :
    s.joinTimeout (joinBody seconds) = pure (wrap64 seconds.toNat) := rfl

def joinAnswers : (call : HttpCall) → call.Answer
  | .validateToken _ => some ⟨bytes "0123", ⟨1, "kim"⟩, 0⟩
  | .join .. => .ok ()
  | .systemClock => (7 : Int)
  | other => other.refusal

theorem joined_in_replay (hmethod : s.req.method = .post)
    (hpath : (splitTarget s.req.target).1 = bytes "/api/queue/join") {token : Bytes}
    (htoken : s.extractAuthSession = ask (.validateToken token)) {body : Json} (hbody : parse s.req.body = some body)
    (hmode : joinMode body = pure "normal") {timeout : Int} (htimeout : s.joinTimeout body = pure timeout) :
    ⟨.join ⟨1, "kim"⟩ timeout, .ok ()⟩ ∈ ((s.handleRequest parse).replay joinAnswers).1 := by
  change _ ∈ _ :: _ :: _ :: (((s.started 0 "").route parse).replay joinAnswers).1
  rw [route_queueJoin (s := s.started 0 "") hmethod hpath, queueJoin, authenticated]
  change _ ∈ _ :: _ :: _ :: ((s.extractAuthSession >>= _).replay joinAnswers).1
  rw [htoken]
  change _ ∈ _ :: _ :: _ :: _ :: ((Program.tryCatch (s.parseBody parse >>= _) _).replay joinAnswers).1
  rw [parseBody, hbody]
  change _ ∈ _ :: _ :: _ :: _ :: ((Program.tryCatch (joinMode body >>= _) _).replay joinAnswers).1
  rw [hmode]
  change _ ∈ _ :: _ :: _ :: _ :: ((Program.tryCatch (s.joinTimeout body >>= _) _).replay joinAnswers).1
  rw [htimeout]
  exact List.mem_of_getElem? (i := 4) rfl

theorem Exchange.clock_read {calls : List (Sigma HttpCall.Answer)} {user : AuthUser} {timeout now : Int}
    (h : Exchange calls user timeout now) : ⟨.systemClock, now⟩ ∈ calls := by
  obtain ⟨before, after, rfl⟩ := h.order
  simp

theorem keepsDeadline_iff_five :
    ∃ calls out, ((joinRequest "5").handleRequest fun _ => some (joinBody 5)).Runs calls out ∧
    Exchange calls ⟨1, "kim"⟩ 5 7 ∧
    ∃ node : QueueNode, node.entry.expiresAt = 5000000003 ∧ KeepsDeadline 5 node 3 7 5000000007 := by
  have hrun := runs_replay joinAnswers ((joinRequest "5").handleRequest fun _ => some (joinBody 5))
  have hjoin : ⟨.join ⟨1, "kim"⟩ 5, .ok ()⟩ ∈
      (((joinRequest "5").handleRequest fun _ => some (joinBody 5)).replay joinAnswers).1 :=
    joined_in_replay rfl (by decide) rfl rfl rfl ((joinTimeout_joinBody _ 5).trans (congrArg Program.pure (by decide)))
  obtain ⟨body, now, hbody, hexchange, hall⟩ :=
    keepsDeadline_iff (fun _ => some (joinBody 5)) (joinRequest "5") rfl (by decide) (by decide) hrun hjoin
  have hseven : now = 7 := answer_of_mem_replay joinAnswers hexchange.clock_read
  cases hbody
  subst hseven
  obtain ⟨node, -, hiff⟩ := hall { clock := 0 } _ false 3 (by decide) (by decide) rfl
  have hkeeps := hiff.mpr ⟨by rintro _ ⟨⟩; decide, by decide, by decide⟩
  exact ⟨_, _, hrun, hexchange, node, hkeeps.enforced, hkeeps⟩

/-- With no seconds the queue gives the default and the client is told that
its time is up already. -/
theorem not_keepsDeadline_of_zero :
    ∃ calls out, ((joinRequest "0").handleRequest fun _ => some (joinBody 0)).Runs calls out ∧
      Exchange calls ⟨1, "kim"⟩ 0 7 ∧ (joinRequest "0").askedSeconds (joinBody 0) = 10 ∧
      ∃ queue' node, MatchQueueService.join 10 { clock := 0 } ⟨1, "kim"⟩ 0 false 3 = .ok queue' ∧
        queue'.queue.queue = [node] ∧ node.entry.expiresAt = 10000000003 ∧
        ¬ KeepsDeadline 10 node 3 7 (addSeconds 7 0) := by
  have hrun := runs_replay joinAnswers ((joinRequest "0").handleRequest fun _ => some (joinBody 0))
  have hjoin : ⟨.join ⟨1, "kim"⟩ 0, .ok ()⟩ ∈
      (((joinRequest "0").handleRequest fun _ => some (joinBody 0)).replay joinAnswers).1 :=
    joined_in_replay rfl (by decide) rfl rfl rfl ((joinTimeout_joinBody _ 0).trans (congrArg Program.pure (by decide)))
  obtain ⟨body, now, -, -, hexchange⟩ := handleRequest_joins rfl (by decide) _ _ hrun ⟨1, "kim"⟩ 0 hjoin
  have hseven : now = 7 := answer_of_mem_replay joinAnswers hexchange.clock_read
  subst hseven
  refine ⟨_, _, hrun, hexchange, rfl, _, _, rfl, rfl, rfl, ?_⟩
  intro h
  have htold := h.told
  revert htold
  decide

end HttpSession

end GameServer
