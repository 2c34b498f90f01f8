import GameServer.Clock
import GameServer.Envelope
import GameServer.InputFrame
import GameServer.Numeral
import GameServer.Program
import GameServer.Reconnect

namespace GameServer

/-- What the handler of a frame calls, one step each for the other threads,
except that submitInput is two. -/
inductive SocketCall
  | systemClock
  | validate (token : String) (user : AuthUser)
  | issueToken (user : AuthUser) (snapshotVersion : Int) (snapshot : AuthSnapshot) (previousToken : Option String)
  | submitInput (input : SessionInput)
  | enqueueMessage (message : Json)

abbrev SocketCall.Answer : SocketCall → Type
  | .systemClock => Int
  | .validate .. => Option ResumeSnapshot
  | .issueToken .. => String
  | .submitInput _ => Except Error Unit
  | .enqueueMessage _ => Unit

abbrev FrameHandler := Program SocketCall SocketCall.Answer Exn

def snapshotJson (snapshot : AuthSnapshot) : Json :=
  Json.ofMembers [("version", .ofInt snapshot.version), ("state", .string snapshot.state),
    ("issuedAt", .string (Clock.toIsoString snapshot.issuedAt)),
    ("user", .ofMembers [("userId", .ofInt snapshot.user.userId), ("username", .string snapshot.user.username)])]

namespace WsEnvelope

def echo (userId : Int) (message : Json) (seq : UInt64) : WsEnvelope :=
  ⟨"event", "echo", seq, message.set "userId" (.ofInt userId)⟩

def resyncState (resumeToken : String) (snapshot : AuthSnapshot) (seq : UInt64) : WsEnvelope :=
  ⟨"event", "resync_state", seq, Json.ofMembers [("resumeToken", .string resumeToken),
    ("snapshot", snapshotJson snapshot)]⟩

end WsEnvelope

def frameSeq (message : Json) : UInt64 :=
  match message.find "seq" with
  | none => 0
  | some seq => if seq.isNumberUnsigned then UInt64.ofNat seq.getUInt64 else 0

namespace ResumeConnection

variable (parse : Bytes → Option Json) (c : ResumeConnection)

def ask (call : SocketCall) : FrameHandler call.Answer := .request call

def enqueue (env : WsEnvelope) : FrameHandler Unit := ask (.enqueueMessage (toWsJson env))

def sendError (code message : String) (seq : UInt64) : FrameHandler ResumeConnection := do
  enqueue (.error code message seq)
  pure c

def sendEcho (message : Json) (seq : UInt64) : FrameHandler ResumeConnection := do
  enqueue (.echo c.user.userId message seq)
  pure c

def buildSnapshot : FrameHandler AuthSnapshot := do
  let now : Int ← ask .systemClock
  pure (Resumption.buildSnapshot c.user c.snapshotVersion now)

def handleResyncRequest (token : String) (seq : UInt64) : FrameHandler ResumeConnection := do
  let snapshot : Option ResumeSnapshot ← ask (.validate token c.user)
  match snapshot with
  | none => c.sendError "invalid_resume_token" "이전 resumeToken이 유효하지 않습니다" seq
  | some _ => do
    let snapshot ← c.buildSnapshot
    let resumeToken : String ← ask (.issueToken c.user c.snapshotVersion snapshot (some token))
    enqueue (.resyncState resumeToken snapshot seq)
    pure { c with snapshot := snapshot, resumeToken := resumeToken }

def handleSessionInput (message : Json) (seq : UInt64) : FrameHandler ResumeConnection :=
  match GameServer.handleSessionInput c.user.userId message with
  | .error e => c.sendError e.code e.message seq
  | .ok input => do
    let result : Except Error Unit ← ask (.submitInput input)
    match result with
    | .error e => c.sendError e.code e.message seq
    | .ok () => pure c

def handleEcho (payload : Option Json) (seq : UInt64) : FrameHandler ResumeConnection :=
  match payload with
  | some (.object members) =>
    match (Json.object members).find "message" with
    | some (.string _) => c.sendEcho (.object members) seq
    | _ => c.sendError "bad_request" "message 필드가 필요합니다" seq
  | _ => c.sendError "bad_request" "payload가 누락되었습니다" seq

def handleResync (payload : Option Json) (seq : UInt64) : FrameHandler ResumeConnection :=
  match payload with
  | some (.object members) =>
    match (Json.object members).find "resumeToken" with
    | some (.string token) => c.handleResyncRequest token seq
    | _ => c.sendError "invalid_resume_token" "resumeToken이 필요합니다" seq
  | _ => c.sendError "invalid_resume_token" "resumeToken이 필요합니다" seq

def handleInput (payload : Option Json) (seq : UInt64) : FrameHandler ResumeConnection :=
  match payload with
  | some (.object members) => c.handleSessionInput (.object members) seq
  | _ => c.sendError "bad_request" "payload가 누락되었습니다" seq

def handleEvent (event : String) (payload : Option Json) (seq : UInt64) : FrameHandler ResumeConnection :=
  if event = "echo" then c.handleEcho payload seq
  else if event = "resync_request" then c.handleResync payload seq
  else if event = "session.input" then c.handleInput payload seq
  else c.sendError "bad_request" "알 수 없는 이벤트" seq

def handleMessage (message : Json) : FrameHandler ResumeConnection :=
  let seq := frameSeq message
  match message.find "t" with
  | some (.string type) =>
    match message.find "event" with
    | some (.string event) =>
      if type = "event" then c.handleEvent event (message.find "p") seq
      else c.sendError "bad_request" "알 수 없는 메시지 유형" seq
    | _ => c.sendError "bad_request" "알 수 없는 메시지 유형" seq
  | _ => c.sendError "bad_request" "잘못된 메시지 형식" seq

def onRead (data : Bytes) : FrameHandler ResumeConnection :=
  Program.tryCatch ((parse data).elim (.throw .parseError) c.handleMessage) fun _ =>
    c.sendError "bad_request" "JSON 파싱 오류" 0

end ResumeConnection

end GameServer
