import GameServer.Auth
import GameServer.Clock
import GameServer.Envelope
import GameServer.Leaderboard
import GameServer.Program
import GameServer.Query

namespace GameServer

inductive Verb
  | get
  | post
  | other (name : Bytes)
deriving DecidableEq, Repr

/-- A request as the parser delivers it, with the two header fields that are
read and what is_upgrade says of it. -/
structure Request where
  method : Verb
  target : Bytes
  authorization : Option Bytes := none
  opsToken : Option Bytes := none
  body : Bytes := []
  upgrade : Bool := false
deriving DecidableEq, Repr

structure Response where
  status : Nat
  server : Option String
  body : Json

structure MetricsSnapshot where
  requestTotal : UInt64
  requestErrors : UInt64
  websocketActive : UInt64
  activeSessions : UInt64
  queueLength : UInt64
deriving DecidableEq, Repr

structure LogContext where
  traceId : String
  userId : Option Int := none
  sessionId : Option String := none
  name : Bytes
  latencyMs : Int
deriving DecidableEq, Repr

structure AppConfig where
  matchQueueTimeoutSeconds : UInt64
  opsToken : Bytes := []
deriving DecidableEq, Repr

/-- What the handlers call, one step each for the other threads. -/
inductive HttpCall
  | steadyClock
  | systemClock
  | nextTraceId
  | incrementRequest
  | incrementError
  | loadRequestTotal
  | loadRequestErrors
  | loadWebsocketActive
  | print (line : Json)
  | activeSessionCount
  | queueLength
  | registerUser (username password : String)
  | login (username password ip : String)
  | logout (token : Bytes)
  | validateToken (token : Bytes)
  | ensureUser (userId : Int) (username : String)
  | getLeaderboard (page size : UInt64)
  | getSummary (userId : Int)
  | join (user : AuthUser) (timeout : Int)
  | cancel (userId : Int)
  | remoteIp
  | asyncWrite (res : Response)
  /-- The WebSocket connection takes the stream over. -/
  | accept (session : AuthSession)

abbrev HttpCall.Answer : HttpCall → Type
  | .steadyClock | .systemClock => Int
  | .nextTraceId | .remoteIp => String
  | .loadRequestTotal | .loadRequestErrors | .loadWebsocketActive | .activeSessionCount | .queueLength => UInt64
  | .registerUser .. => Except Error AuthUser
  | .login .. => Except Error AuthSession
  | .logout .. => Bool
  | .validateToken .. => Option AuthSession
  | .getLeaderboard .. => LeaderboardPage
  | .getSummary .. => Option RatingSummary
  | .join .. | .cancel .. => Except Error Unit
  | .incrementRequest | .incrementError | .print .. | .ensureUser .. | .asyncWrite .. | .accept .. => Unit

abbrev Handler := Program HttpCall HttpCall.Answer Exn

def ask (call : HttpCall) : Handler call.Answer := .request call

def validUtf8 (b : Bytes) : Prop := (⟨b.toArray⟩ : ByteArray).IsValidUTF8

instance (b : Bytes) : Decidable (validUtf8 b) := inferInstanceAs (Decidable (ByteArray.IsValidUTF8 _))

/-- A string that goes into a dump. In the strict mode it has to be valid. -/
def dumped (b : Bytes) : Handler String :=
  if h : validUtf8 b then pure (.fromUTF8 _ h) else .throw .typeError

namespace Observability

def snapshot (activeSessions queueLength : UInt64) : Handler MetricsSnapshot := do
  let requestTotal : UInt64 ← ask .loadRequestTotal
  let requestErrors : UInt64 ← ask .loadRequestErrors
  let websocketActive : UInt64 ← ask .loadWebsocketActive
  pure ⟨requestTotal, requestErrors, websocketActive, activeSessions, queueLength⟩

def logJson (ctx : LogContext) (name : String) : Json :=
  let logJson := Json.ofMembers [("traceId", .string ctx.traceId), ("eventName", .string name),
    ("latencyMs", .ofInt ctx.latencyMs)]
  let logJson := ctx.userId.elim logJson fun userId => logJson.set "userId" (.ofInt userId)
  ctx.sessionId.elim logJson fun sessionId => logJson.set "sessionId" (.string sessionId)

def log (ctx : LogContext) : Handler Unit := do
  let name ← dumped ctx.name
  ask (.print (logJson ctx name))

end Observability

def envelope (success : Bool) (data error : Json) (timestamp : Int) : Json :=
  Json.ofMembers [("success", .boolean success), ("data", data), ("error", error),
    ("meta", .ofMembers [("timestamp", .string (Clock.toIsoString timestamp))])]

def makeSuccessEnvelope (data : Json) : Handler Json := do
  let now : Int ← ask .systemClock
  pure (envelope true data .null now)

def errorJson (e : Error) : Json :=
  Json.ofMembers [("code", .string e.code), ("message", .string e.message), ("detail", .null)]

def makeErrorEnvelope (e : Error) : Handler Json := do
  let now : Int ← ask .systemClock
  pure (envelope false .null (errorJson e) now)

def parseBearer (headerValue : Bytes) : Bytes :=
  if headerValue.length ≤ 7 then []
  else if headerValue.take 7 ≠ bytes "Bearer " then []
  else headerValue.drop 7

def splitTarget (target : Bytes) : Bytes × Bytes :=
  match target.idxOf? 63 with
  | none => (target, [])
  | some qpos => (target.take qpos, target.drop (qpos + 1))

structure HttpSession where
  config : AppConfig
  req : Request
  traceId : String := ""
  requestStart : Int := 0

namespace HttpSession

variable (parse : Bytes → Option Json) (s : HttpSession)

def recordError (res : Response) : Handler Unit := if res.status ≥ 400 then ask .incrementError else pure ()

def sendResponse (res : Response) : Handler Unit := do
  recordError res
  let now : Int ← ask .steadyClock
  Observability.log {
    traceId := s.traceId
    name := s.req.target
    latencyMs := (now - s.requestStart).tdiv 1000000 }
  ask (.asyncWrite res)

def succeed (status : Nat) (data : Json) : Handler Unit := do
  let body ← makeSuccessEnvelope data
  s.sendResponse ⟨status, some "codex-gameserver", body⟩

def fail (status : Nat) (e : Error) : Handler Unit := do
  let body ← makeErrorEnvelope e
  s.sendResponse ⟨status, some "codex-gameserver", body⟩

def extractAuthSession : Handler (Option AuthSession) :=
  match s.req.authorization with
  | none => pure none
  | some value =>
    let token := parseBearer value
    if token = [] then pure none else ask (.validateToken token)

def authenticated (handle : AuthSession → Handler Unit) : Handler Unit := do
  let session ← s.extractAuthSession
  match session with
  | none => s.fail 401 ⟨"unauthorized", "인증이 필요합니다"⟩
  | some session => handle session

def parseBody : Handler Json :=
  match parse s.req.body with
  | none => .throw .parseError
  | some body => pure body

def credentials (body : Json) : Handler (String × String) :=
  match body.find "username", body.find "password" with
  | some username, some password =>
    if username.isString ∧ password.isString then pure (username.getString, password.getString)
    else .throw (.runtimeError "invalid body")
  | _, _ => .throw (.runtimeError "invalid body")

def userJson (user : AuthUser) : Json :=
  Json.ofMembers [("userId", .ofInt user.userId), ("username", .string user.username)]

def health : Handler Unit := s.succeed 200 (Json.ofMembers [("status", .string "ok"), ("version", .string "v1.0.0")])

def metrics : Handler Unit := do
  let activeSessions : UInt64 ← ask .activeSessionCount
  let queueLength : UInt64 ← ask .queueLength
  let snapshot ← Observability.snapshot activeSessions queueLength
  s.succeed 200 (Json.ofMembers [
    ("requests", .ofMembers [("total", .numberUnsigned snapshot.requestTotal),
      ("errors", .numberUnsigned snapshot.requestErrors)]),
    ("connections", .ofMembers [("websocket", .numberUnsigned snapshot.websocketActive)]),
    ("sessions", .ofMembers [("active", .numberUnsigned snapshot.activeSessions)]),
    ("queue", .ofMembers [("length", .numberUnsigned snapshot.queueLength)])])

def opsStatus : Handler Unit :=
  let headerToken := s.req.opsToken.getD []
  if s.config.opsToken = [] ∨ headerToken ≠ s.config.opsToken then
    s.fail 401 ⟨"unauthorized", "운영 토큰이 올바르지 않습니다"⟩
  else do
    let activeSessions : UInt64 ← ask .activeSessionCount
    let queueLength : UInt64 ← ask .queueLength
    let snapshot ← Observability.snapshot activeSessions queueLength
    s.succeed 200 (Json.ofMembers [
      ("activeSessions", .numberUnsigned snapshot.activeSessions),
      ("queueLength", .numberUnsigned snapshot.queueLength),
      ("activeWebsocket", .numberUnsigned snapshot.websocketActive),
      ("errorCount", .numberUnsigned snapshot.requestErrors)])

def badBody : Handler Unit := s.fail 400 ⟨"bad_request", "JSON 본문이 올바르지 않습니다"⟩

/-- Sending the response stands inside the try block too. -/
def register : Handler Unit :=
  Program.tryCatch (do
    let body ← s.parseBody parse
    let (username, password) ← credentials body
    let user : Except Error AuthUser ← ask (.registerUser username password)
    match user with
    | .error e => s.fail (if e.code = "bad_request" then 400 else 409) e
    | .ok user => do
      ask (.ensureUser user.userId user.username)
      s.succeed 201 (userJson user)) fun _ => s.badBody

def login : Handler Unit :=
  Program.tryCatch (do
    let body ← s.parseBody parse
    let (username, password) ← credentials body
    let ip : String ← ask .remoteIp
    let session : Except Error AuthSession ← ask (.login username password ip)
    match session with
    | .error e => s.fail (if e.code = "rate_limited" then 429 else 401) e
    | .ok session => do
      ask (.ensureUser session.user.userId session.user.username)
      let token ← dumped session.token
      s.succeed 200 (Json.ofMembers [("token", .string token),
        ("expiresAt", .string (Clock.toIsoString session.expiresAt)), ("user", userJson session.user)]))
    fun _ => s.badBody

def logout : Handler Unit :=
  s.authenticated fun session => do
    let _ : Bool ← ask (.logout session.token)
    s.succeed 200 (Json.ofMembers [("loggedOut", .boolean true)])

def joinMode (body : Json) : Handler String :=
  match body.find "mode" with
  | none => .throw (.runtimeError "mode required")
  | some mode =>
    if mode.isString then
      if mode.getString ≠ "normal" then .throw (.runtimeError "mode invalid") else pure mode.getString
    else .throw (.runtimeError "mode required")

def joinTimeout (body : Json) : Handler Int :=
  match body.find "timeoutSeconds" with
  | none => pure (Clock.wrap64 s.config.matchQueueTimeoutSeconds.toNat)
  | some timeout =>
    if timeout.isNumberUnsigned then pure (Clock.wrap64 timeout.getUInt64)
    else .throw (.runtimeError "timeout invalid")

def joinedJson (mode : String) (expiresAt : Int) : Json :=
  Json.ofMembers [("queued", .boolean true), ("mode", .string mode),
    ("expiresAt", .string (Clock.toIsoString expiresAt))]

def queueJoin : Handler Unit :=
  s.authenticated fun session =>
    Program.tryCatch (do
      let body ← s.parseBody parse
      let mode ← joinMode body
      let timeout ← s.joinTimeout body
      let joined : Except Error Unit ← ask (.join session.user timeout)
      match joined with
      | .error e => s.fail (if e.code = "queue_duplicate" then 409 else 400) e
      | .ok () => do
        let now : Int ← ask .systemClock
        s.succeed 200 (joinedJson mode (Clock.addSeconds now timeout)))
      fun _ => s.fail 400 ⟨"bad_request", "mode 또는 timeoutSeconds가 올바르지 않습니다"⟩

def queueCancel : Handler Unit :=
  s.authenticated fun session => do
    let canceled : Except Error Unit ← ask (.cancel session.user.userId)
    match canceled with
    | .error e => s.fail 404 e
    | .ok () => s.succeed 200 (Json.ofMembers [("canceled", .boolean true)])

def entryJson (entry : Int × RatingSummary) : Json :=
  Json.ofMembers [("rank", .ofInt entry.1), ("userId", .ofInt entry.2.userId),
    ("username", .string entry.2.username), ("rating", .ofInt entry.2.rating), ("wins", .ofInt entry.2.wins),
    ("losses", .ofInt entry.2.losses), ("matches", .ofInt (entry.2.wins + entry.2.losses))]

def leaderboardJson (page size : UInt64) (pageData : LeaderboardPage) : Json :=
  Json.ofMembers [("page", .numberUnsigned page), ("size", .numberUnsigned size),
    ("total", .numberUnsigned pageData.total),
    ("entries", .array ((RatingService.rankedEntries page size pageData).map entryJson))]

def leaderboard (query : Bytes) : Handler Unit :=
  let params := parseQueryParams query
  let (page, invalid) := parseOrFlag params (bytes "page") 1 1 (-1) false
  let (size, invalid) := parseOrFlag params (bytes "size") 10 1 50 invalid
  if invalid then s.fail 400 ⟨"leaderboard_range", "page 또는 size 값이 허용 범위를 벗어났습니다"⟩
  else do
    let pageData : LeaderboardPage ← ask (.getLeaderboard page size)
    s.succeed 200 (leaderboardJson page size pageData)

def profile : Handler Unit :=
  s.authenticated fun session => do
    let summary : Option RatingSummary ← ask (.getSummary session.user.userId)
    let rating := summary.elim 1000 (·.rating)
    let wins := summary.elim 0 (·.wins)
    let losses := summary.elim 0 (·.losses)
    s.succeed 200 (Json.ofMembers [("userId", .ofInt session.user.userId),
      ("username", .string session.user.username), ("rating", .ofInt rating), ("wins", .ofInt wins),
      ("losses", .ofInt losses), ("matches", .ofInt (wins + losses))])

def route : Handler Unit :=
  let (path, query) := splitTarget s.req.target
  match s.req.method with
  | .get =>
    if path = bytes "/api/health" then s.health
    else if path = bytes "/metrics" then s.metrics
    else if path = bytes "/ops/status" then s.opsStatus
    else if path = bytes "/api/leaderboard" then s.leaderboard query
    else if path = bytes "/api/profile" then s.profile
    else s.fail 404 ⟨"not_found", "지원되지 않는 경로입니다"⟩
  | .post =>
    if path = bytes "/api/auth/register" then s.register parse
    else if path = bytes "/api/auth/login" then s.login parse
    else if path = bytes "/api/auth/logout" then s.logout
    else if path = bytes "/api/queue/join" then s.queueJoin parse
    else if path = bytes "/api/queue/cancel" then s.queueCancel
    else s.fail 404 ⟨"not_found", "지원되지 않는 경로입니다"⟩
  | .other _ => s.fail 404 ⟨"not_found", "지원되지 않는 경로입니다"⟩

def started (requestStart : Int) (traceId : String) : HttpSession :=
  { s with requestStart := requestStart, traceId := traceId }

def handleRequest : Handler Unit := do
  let requestStart : Int ← ask .steadyClock
  let traceId : String ← ask .nextTraceId
  ask .incrementRequest
  (s.started requestStart traceId).route parse

/-- The answer without a valid token. It counts no request and takes no trace
id. -/
def denyUpgrade : Handler Unit := do
  let body ← makeErrorEnvelope ⟨"unauthorized", "WS 업그레이드에는 인증이 필요합니다"⟩
  s.sendResponse ⟨401, none, body⟩

def handleWebSocket : Handler Unit := do
  let session ← s.extractAuthSession
  match session with
  | none => s.denyUpgrade
  | some session => ask (.accept session)

def onRead : Handler Unit := if s.req.upgrade then s.handleWebSocket else s.handleRequest parse

end HttpSession

end GameServer
