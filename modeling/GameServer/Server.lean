import GameServer.Machine
import GameServer.MatchQueue
import GameServer.Session

namespace GameServer

structure Config (D : Type) where
  maxTicks : Nat
  tickInterval : Int := 100
  defaultTimeout : Int := 10
  elo : Elo D

/-- The match queue, the session manager, the result service and the calls
between them. A context is known by the order of its creation, as the source
knows it by a shared pointer. -/
structure Server where
  contexts : List SessionContext := []
  sessions : Table String Nat := ∅
  userToSession : Table Int String := ∅
  nextSessionId : Nat := 1
  queue : MatchQueue := {}
  records : ResultRepository := ∅
  ratings : RatingService := ∅
  /-- SubmitInput calls that have found their context and wait for its strand. -/
  calls : List (SessionInput × Nat) := []
  /-- The SendEventToUser calls made so far. -/
  log : List (Int × SessionEvent) := []
  /-- The users queue_timeout was sent to. -/
  timeoutErrors : List Int := []
deriving DecidableEq

/-- One step of some thread. What happens under one mutex, or on one strand
between two such sections, is one step. -/
inductive Action
  | joinCheck (user : AuthUser) (timeout : Int)
  | joinPush (now : Int)
  | cancel (userId : Int)
  | queueTick (now : Int)
  | pair
  | createSession
  | startSession (k : Nat) (now : Int)
  | timer (k : Nat) (ok : Bool) (now : Int)
  | proceed (k : Nat)
  | submitLookup (input : SessionInput)
  | submitHandler (n : Nat)
  | ensureUser (userId : Int) (username : String)
deriving DecidableEq, Repr

namespace Server

variable {D : Type}

def setContext (s : Server) (k : Nat) (ctx : SessionContext) : Server :=
  { s with contexts := s.contexts.set k ctx }

@[simp] theorem setContext_contexts (s : Server) (k : Nat) (ctx : SessionContext) :
    (s.setContext k ctx).contexts = s.contexts.set k ctx := rfl

@[simp] theorem setContext_records (s : Server) (k : Nat) (ctx : SessionContext) :
    (s.setContext k ctx).records = s.records := rfl

@[simp] theorem setContext_ratings (s : Server) (k : Nat) (ctx : SessionContext) :
    (s.setContext k ctx).ratings = s.ratings := rfl

@[simp] theorem setContext_log (s : Server) (k : Nat) (ctx : SessionContext) :
    (s.setContext k ctx).log = s.log := rfl

def sessionId (n : Nat) : String := "session-" ++ n.repr

def isUserInSession (s : Server) (userId : Int) : Bool := decide (userId ∈ s.userToSession)

def joinRefused (s : Server) (userId : Int) : Bool :=
  decide (userId ∈ s.queue.userIndex) || s.isUserInSession userId

def joinCheck (s : Server) (user : AuthUser) (timeout : Int) : Except Error Server :=
  if s.joinRefused user.userId then .error ⟨"queue_duplicate", "이미 큐에 있거나 세션에 참여 중입니다"⟩
  else .ok { s with queue := { s.queue with holder := .joining user timeout } }

def newContext (cfg : Config D) (s : Server) (participants : List SessionParticipant) : SessionContext where
  id := sessionId s.nextSessionId
  participants := participants
  participantMap := participants.foldl (fun map p => map.insert p.userId p) ∅
  simulation := participants.foldl (fun sim p => sim.addPlayer p.userId) {}
  tickInterval := cfg.tickInterval

/-- The section of CreateSession under the session mutex. The start handler
it dispatches is queued on the new strand. -/
def createSession (cfg : Config D) (s : Server) (participants : List SessionParticipant) : Server :=
  let ctx := s.newContext cfg participants
  { s with
    contexts := s.contexts ++ [ctx]
    sessions := s.sessions.insert ctx.id s.contexts.length
    userToSession := participants.foldl (fun map p => map.insert p.userId ctx.id) s.userToSession
    nextSessionId := s.nextSessionId + 1 }

def release (s : Server) (k : Nat) (ctx : SessionContext) : Server :=
  { s with
    contexts := s.contexts.set k (ctx.resumeAt .idle)
    sessions := s.sessions.erase ctx.id
    userToSession := ctx.participants.foldl (fun map p => map.erase p.userId) s.userToSession }

/-- The first section of SubmitInput. The session id of the input is not
looked at. -/
def lookupSession (s : Server) (input : SessionInput) : Except Error Nat :=
  match s.userToSession.lookup input.userId with
  | none => .error ⟨"session_not_found", "세션을 찾을 수 없습니다"⟩
  | some id =>
    match s.sessions.lookup id with
    | none => .error ⟨"session_not_found", "세션을 찾을 수 없습니다"⟩
    | some k => .ok k

def proceed (cfg : Config D) (s : Server) (k : Nat) (ctx : SessionContext) : Option Server :=
  match ctx.strand.sends with
  | send :: _ => some { s.setContext k ctx.sent with log := s.log ++ [send] }
  | [] =>
    match ctx.strand.resume with
    | .idle => none
    | .scheduleTick => some (s.setContext k ctx.scheduleTick)
    | .finishSession now => some (s.setContext k (ctx.finishSession now))
    | .finalizeResult record =>
      let (records, saved) := s.records.saveIfAbsent record
      let resume := if saved then .ensureUsers record (usersToEnsure record ctx.participants) else .release
      some { s.setContext k (ctx.resumeAt resume) with records := records }
    | .ensureUsers record (user :: todo) =>
      some { s.setContext k (ctx.resumeAt (.ensureUsers record todo)) with
        ratings := s.ratings.ensureUser user.1 user.2 }
    | .ensureUsers record [] =>
      some { s.setContext k (ctx.resumeAt .release) with
        ratings := (s.ratings.applyMatchResult cfg.elo record.winnerUserId record.loserId).1 }
    | .release => some (s.release k ctx)

def step (cfg : Config D) (s : Server) : Action → Option Server
  | .joinCheck user timeout =>
    if s.queue.holder = .free then
      match s.joinCheck user timeout with
      | .ok s => some s
      | .error _ => some s
    else none
  | .joinPush now =>
    match s.queue.holder with
    | .joining user timeout =>
      some { s with queue := { s.queue.push cfg.defaultTimeout user timeout now with holder := .free } }
    | _ => none
  | .cancel userId =>
    if s.queue.holder = .free then
      match s.queue.cancel userId with
      | some queue => some { s with queue := queue }
      | none => some s
    else none
  | .queueTick now =>
    if s.queue.holder = .free ∧ s.queue.timerActive then
      let (queue, uids) := s.queue.handleTimeouts now
      some { s with queue := { queue with holder := .pairing }, timeoutErrors := s.timeoutErrors ++ uids }
    else none
  | .pair =>
    if s.queue.holder = .pairing then
      match s.queue.popPair with
      | some (queue, first, second) => some { s with queue := { queue with holder := .creating first second } }
      | none => some { s with queue := { s.queue with holder := .free } }
    else none
  | .createSession =>
    match s.queue.holder with
    | .creating first second =>
      let s := s.createSession cfg [⟨first.userId, first.username⟩, ⟨second.userId, second.username⟩]
      some { s with queue := { s.queue with holder := .pairing } }
    | _ => none
  | .startSession k now =>
    s.contexts[k]?.bind fun ctx =>
      if ctx.strand.Free ∧ ctx.strand.startQueued then some (s.setContext k (ctx.startSession now)) else none
  | .timer k ok now =>
    s.contexts[k]?.bind fun ctx =>
      if ctx.strand.Free ∧ ctx.strand.timerArmed then
        some (s.setContext k (if ok then ctx.disarm.handleTick cfg.maxTicks now else ctx.disarm))
      else none
  | .proceed k => s.contexts[k]?.bind fun ctx => s.proceed cfg k ctx
  | .submitLookup input =>
    match s.lookupSession input with
    | .ok k => some { s with calls := s.calls ++ [(input, k)] }
    | .error _ => some s
  | .submitHandler n =>
    s.calls[n]?.bind fun call =>
      s.contexts[call.2]?.bind fun ctx =>
        if ctx.strand.Free then
          some { s.setContext call.2 (ctx.handleInput call.1).1 with calls := s.calls.eraseIdx n }
        else none
  | .ensureUser userId username => some { s with ratings := s.ratings.ensureUser userId username }

def machine (cfg : Config D) : Machine Server Action where
  init := {}
  step := step cfg

def eventsTo (s : Server) (userId : Int) : List SessionEvent :=
  (s.log.filter (·.1 = userId)).map (·.2)

end Server

end GameServer
