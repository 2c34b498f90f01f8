import GameServer.Permits
import GameServer.Responses

namespace GameServer

open HttpSession

inductive Changed : Sigma HttpCall.Answer → Prop
  | registered (username password : String) (user : AuthUser) : Changed ⟨.registerUser username password, .ok user⟩
  | loggedIn (username password ip : String) (session : AuthSession) :
      Changed ⟨.login username password ip, .ok session⟩
  | loggedOut (token : Bytes) (answer : Bool) : Changed ⟨.logout token, answer⟩
  | ensured (userId : Int) (username : String) : Changed ⟨.ensureUser userId username, ()⟩
  | joined (user : AuthUser) (timeout : Int) : Changed ⟨.join user timeout, .ok ()⟩
  | canceled (userId : Int) : Changed ⟨.cancel userId, .ok ()⟩
  | accepted (session : AuthSession) : Changed ⟨.accept session, ()⟩

def Request.path (req : Request) : Bytes := (splitTarget req.target).1

def Request.query (req : Request) : Bytes := (splitTarget req.target).2

def Request.bearer (req : Request) : Bytes := req.authorization.elim [] parseBearer

def Request.At (req : Request) (verb : Verb) (path : String) : Prop :=
  req.upgrade = false ∧ req.method = verb ∧ req.path = bytes path

def endpoints : List (Verb × String) :=
  [(.get, "/api/health"), (.get, "/metrics"), (.get, "/ops/status"), (.get, "/api/leaderboard"),
    (.get, "/api/profile"), (.post, "/api/auth/register"), (.post, "/api/auth/login"), (.post, "/api/auth/logout"),
    (.post, "/api/queue/join"), (.post, "/api/queue/cancel")]

def protectedEndpoints : List (Verb × String) :=
  [(.get, "/api/profile"), (.post, "/api/auth/logout"), (.post, "/api/queue/join"), (.post, "/api/queue/cancel")]

def requestedPage (query : Bytes) : UInt64 × UInt64 × Bool :=
  let params := parseQueryParams query
  let (page, invalid) := parseOrFlag params (bytes "page") 1 1 (-1) false
  let (size, invalid) := parseOrFlag params (bytes "size") 10 1 50 invalid
  (page, size, invalid)

/-- There is no token, or ValidateToken has refused it. -/
structure Unproved (req : Request) (calls : List (Sigma HttpCall.Answer)) : Prop where
  refused : req.bearer = [] ∨ ⟨.validateToken req.bearer, none⟩ ∈ calls
  never : ∀ session, ⟨.validateToken req.bearer, some session⟩ ∉ calls

/-- The body is JSON with the two texts that a registration and a login read. -/
def Request.Names (parse : Bytes → Option Json) (req : Request) (username password : String) : Prop :=
  ∃ body, parse req.body = some body ∧ credentials body = pure (username, password)

/-- The body is JSON with the mode, and has this timeout or none while it is the
default. -/
def Request.Asks (parse : Bytes → Option Json) (config : AppConfig) (req : Request) (timeout : Int) : Prop :=
  ∃ body, parse req.body = some body ∧ joinMode body = pure "normal" ∧
    ({ config := config, req := req } : HttpSession).joinTimeout body = pure timeout

/-- What a request may be answered: the status with the data or the error, by
its endpoint, by its token and body, and by what the services have answered. -/
inductive Contract (parse : Bytes → Option Json) (config : AppConfig) (req : Request)
    (calls : List (Sigma HttpCall.Answer)) : Nat → Except Error Json → Prop
  | health (hat : req.At .get "/api/health") :
      Contract parse config req calls 200
        (.ok (Json.ofMembers [("status", .string "ok"), ("version", .string "v1.0.0")]))
  | metrics {active queued total errors websocket : UInt64} (hat : req.At .get "/metrics")
      (hactive : ⟨.activeSessionCount, active⟩ ∈ calls) (hqueued : ⟨.queueLength, queued⟩ ∈ calls)
      (htotal : ⟨.loadRequestTotal, total⟩ ∈ calls) (herrors : ⟨.loadRequestErrors, errors⟩ ∈ calls)
      (hwebsocket : ⟨.loadWebsocketActive, websocket⟩ ∈ calls) :
      Contract parse config req calls 200 (.ok (Json.ofMembers [
        ("requests", .ofMembers [("total", .numberUnsigned total), ("errors", .numberUnsigned errors)]),
        ("connections", .ofMembers [("websocket", .numberUnsigned websocket)]),
        ("sessions", .ofMembers [("active", .numberUnsigned active)]),
        ("queue", .ofMembers [("length", .numberUnsigned queued)])]))
  | opsStatus {active queued errors websocket : UInt64} (hat : req.At .get "/ops/status")
      (hset : config.opsToken ≠ []) (htoken : req.opsToken = some config.opsToken)
      (hactive : ⟨.activeSessionCount, active⟩ ∈ calls) (hqueued : ⟨.queueLength, queued⟩ ∈ calls)
      (herrors : ⟨.loadRequestErrors, errors⟩ ∈ calls) (hwebsocket : ⟨.loadWebsocketActive, websocket⟩ ∈ calls) :
      Contract parse config req calls 200 (.ok (Json.ofMembers [("activeSessions", .numberUnsigned active),
        ("queueLength", .numberUnsigned queued), ("activeWebsocket", .numberUnsigned websocket),
        ("errorCount", .numberUnsigned errors)]))
  | opsDenied (hat : req.At .get "/ops/status")
      (hdenied : config.opsToken = [] ∨ req.opsToken ≠ some config.opsToken) :
      Contract parse config req calls 401 (.error ⟨"unauthorized", "운영 토큰이 올바르지 않습니다"⟩)
  | leaderboard {page size : UInt64} {pageData : LeaderboardPage} (hat : req.At .get "/api/leaderboard")
      (hquery : requestedPage req.query = (page, size, false)) (hpage : ⟨.getLeaderboard page size, pageData⟩ ∈ calls) :
      Contract parse config req calls 200 (.ok (leaderboardJson page size pageData))
  | leaderboardRange {page size : UInt64} (hat : req.At .get "/api/leaderboard")
      (hquery : requestedPage req.query = (page, size, true)) :
      Contract parse config req calls 400 (.error ⟨"leaderboard_range", "page 또는 size 값이 허용 범위를 벗어났습니다"⟩)
  | profile {session : AuthSession} {summary : Option RatingSummary} (hat : req.At .get "/api/profile")
      (hvalid : ⟨.validateToken req.bearer, some session⟩ ∈ calls)
      (hsummary : ⟨.getSummary session.user.userId, summary⟩ ∈ calls) :
      Contract parse config req calls 200 (.ok (Json.ofMembers [("userId", .ofInt session.user.userId),
        ("username", .string session.user.username), ("rating", .ofInt (summary.elim 1000 (·.rating))),
        ("wins", .ofInt (summary.elim 0 (·.wins))), ("losses", .ofInt (summary.elim 0 (·.losses))),
        ("matches", .ofInt (summary.elim 0 (·.wins) + summary.elim 0 (·.losses)))]))
  | registered {username password : String} {user : AuthUser} (hat : req.At .post "/api/auth/register")
      (hnames : req.Names parse username password) (hcall : ⟨.registerUser username password, .ok user⟩ ∈ calls) :
      Contract parse config req calls 201 (.ok (userJson user))
  | registerRefused {username password : String} {e : Error} (hat : req.At .post "/api/auth/register")
      (hnames : req.Names parse username password) (hcall : ⟨.registerUser username password, .error e⟩ ∈ calls) :
      Contract parse config req calls (if e.code = "bad_request" then 400 else 409) (.error e)
  | loggedIn {username password ip : String} {session : AuthSession} {token : String}
      (hat : req.At .post "/api/auth/login") (hnames : req.Names parse username password)
      (hip : ⟨.remoteIp, ip⟩ ∈ calls) (hcall : ⟨.login username password ip, .ok session⟩ ∈ calls)
      (htoken : bytes token = session.token) :
      Contract parse config req calls 200 (.ok (Json.ofMembers [("token", .string token),
        ("expiresAt", .string (Clock.toIsoString session.expiresAt)), ("user", userJson session.user)]))
  | loginRefused {username password ip : String} {e : Error} (hat : req.At .post "/api/auth/login")
      (hnames : req.Names parse username password) (hip : ⟨.remoteIp, ip⟩ ∈ calls)
      (hcall : ⟨.login username password ip, .error e⟩ ∈ calls) :
      Contract parse config req calls (if e.code = "rate_limited" then 429 else 401) (.error e)
  | badBody (hat : req.At .post "/api/auth/register" ∨ req.At .post "/api/auth/login")
      (hno : ∀ username password, ¬ req.Names parse username password) :
      Contract parse config req calls 400 (.error ⟨"bad_request", "JSON 본문이 올바르지 않습니다"⟩)
  | badToken {username password ip : String} {session : AuthSession} (hat : req.At .post "/api/auth/login")
      (hnames : req.Names parse username password) (hip : ⟨.remoteIp, ip⟩ ∈ calls)
      (hcall : ⟨.login username password ip, .ok session⟩ ∈ calls) (htoken : ¬ validUtf8 session.token) :
      Contract parse config req calls 400 (.error ⟨"bad_request", "JSON 본문이 올바르지 않습니다"⟩)
  | loggedOut {session : AuthSession} {answer : Bool} (hat : req.At .post "/api/auth/logout")
      (hvalid : ⟨.validateToken req.bearer, some session⟩ ∈ calls)
      (hcall : ⟨.logout session.token, answer⟩ ∈ calls) :
      Contract parse config req calls 200 (.ok (Json.ofMembers [("loggedOut", .boolean true)]))
  | joined {session : AuthSession} {timeout now : Int} (hat : req.At .post "/api/queue/join")
      (hvalid : ⟨.validateToken req.bearer, some session⟩ ∈ calls) (hasks : req.Asks parse config timeout)
      (hcall : ⟨.join session.user timeout, .ok ()⟩ ∈ calls) (hnow : ⟨.systemClock, now⟩ ∈ calls) :
      Contract parse config req calls 200 (.ok (joinedJson "normal" (Clock.addSeconds now timeout)))
  | joinRefused {session : AuthSession} {timeout : Int} {e : Error} (hat : req.At .post "/api/queue/join")
      (hvalid : ⟨.validateToken req.bearer, some session⟩ ∈ calls) (hasks : req.Asks parse config timeout)
      (hcall : ⟨.join session.user timeout, .error e⟩ ∈ calls) :
      Contract parse config req calls (if e.code = "queue_duplicate" then 409 else 400) (.error e)
  | joinBody {session : AuthSession} (hat : req.At .post "/api/queue/join")
      (hvalid : ⟨.validateToken req.bearer, some session⟩ ∈ calls)
      (hno : ∀ timeout, ¬ req.Asks parse config timeout) :
      Contract parse config req calls 400 (.error ⟨"bad_request", "mode 또는 timeoutSeconds가 올바르지 않습니다"⟩)
  | canceled {session : AuthSession} (hat : req.At .post "/api/queue/cancel")
      (hvalid : ⟨.validateToken req.bearer, some session⟩ ∈ calls)
      (hcall : ⟨.cancel session.user.userId, .ok ()⟩ ∈ calls) :
      Contract parse config req calls 200 (.ok (Json.ofMembers [("canceled", .boolean true)]))
  | cancelRefused {session : AuthSession} {e : Error} (hat : req.At .post "/api/queue/cancel")
      (hvalid : ⟨.validateToken req.bearer, some session⟩ ∈ calls)
      (hcall : ⟨.cancel session.user.userId, .error e⟩ ∈ calls) : Contract parse config req calls 404 (.error e)
  | unauthorized {verb : Verb} {path : String} (hat : req.At verb path) (hin : (verb, path) ∈ protectedEndpoints)
      (hno : Unproved req calls) :
      Contract parse config req calls 401 (.error ⟨"unauthorized", "인증이 필요합니다"⟩)
  | upgradeDenied (hupgrade : req.upgrade = true) (hno : Unproved req calls) :
      Contract parse config req calls 401 (.error ⟨"unauthorized", "WS 업그레이드에는 인증이 필요합니다"⟩)
  | notFound (hplain : req.upgrade = false) (hno : ∀ e ∈ endpoints, ¬ req.At e.1 e.2) :
      Contract parse config req calls 404 (.error ⟨"not_found", "지원되지 않는 경로입니다"⟩)

def bodyOf (outcome : Except Error Json) (now : Int) : Json :=
  match outcome with
  | .ok data => envelope true data .null now
  | .error e => envelope false .null (errorJson e) now

end GameServer
