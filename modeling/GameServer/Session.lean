import GameServer.Results

namespace GameServer

structure SessionInput where
  sessionId : String
  userId : Int
  sequence : Nat
  targetTick : Int
  delta : Int
deriving DecidableEq, Repr

def SessionInput.command (input : SessionInput) : InputCommand where
  userId := input.userId
  sequence := input.sequence
  targetTick := input.targetTick
  delta := input.delta

structure Error where
  code : String
  message : String
deriving DecidableEq, Repr

inductive SessionEvent
  | created (sessionId : String) (createdAt : Int) (participants : List SessionParticipant)
  | started (sessionId : String) (tick : Int) (tickIntervalMs : Int) (state : Snapshot)
  | state (sessionId : String) (tick : Int) (players : List PlayerView) (issuedAt : Int)
  | ended (sessionId : String) (reason : String) (winnerUserId : Int) (ticks : Int)
deriving DecidableEq, Repr

def SessionEvent.name : SessionEvent → String
  | .created .. => "session.created"
  | .started .. => "session.started"
  | .state .. => "session.state"
  | .ended .. => "session.ended"

def SessionEvent.sessionId : SessionEvent → String
  | .created id .. | .started id .. | .state id .. | .ended id .. => id

/-- What a handler still has to do once its pending sends are out. The parts
of FinishSession that take a lock are separate points. -/
inductive Resume
  | idle
  | scheduleTick
  | finishSession (now : Int)
  | finalizeResult (record : MatchResultRecord)
  | ensureUsers (record : MatchResultRecord) (todo : List (Int × String))
  | release
deriving DecidableEq, Repr

/-- One handler runs at a time. The start handler is dispatched on creation
and the timer, once armed, fires once. -/
structure Strand where
  startQueued : Bool := true
  timerArmed : Bool := false
  sends : List (Int × SessionEvent) := []
  resume : Resume := .idle
deriving DecidableEq, Repr

def Strand.Free (strand : Strand) : Prop := strand.sends = [] ∧ strand.resume = .idle

instance (strand : Strand) : Decidable strand.Free :=
  inferInstanceAs (Decidable (strand.sends = [] ∧ strand.resume = .idle))

structure SessionContext where
  id : String
  participants : List SessionParticipant
  participantMap : Table Int SessionParticipant := ∅
  simulation : Simulation := {}
  tickSent : Nat := 0
  ended : Bool := false
  tickInterval : Int := 100
  strand : Strand := {}
deriving DecidableEq

namespace SessionContext

def intMin : Int := -2147483648

def userIds (ctx : SessionContext) : List Int := ctx.participants.map (·.userId)

def broadcastToParticipants (ctx : SessionContext) (event : SessionEvent) : List (Int × SessionEvent) :=
  ctx.participants.map fun p => (p.userId, event)

def scheduleTick (ctx : SessionContext) : SessionContext :=
  { ctx with strand := { ctx.strand with timerArmed := true, resume := .idle } }

/-- Nothing but this handler touches the simulation while it runs, so both
payloads can be built before the first send. -/
def startSession (ctx : SessionContext) (now : Int) : SessionContext :=
  let created := SessionEvent.created ctx.id now ctx.participants
  let started := SessionEvent.started ctx.id 0 ctx.tickInterval ctx.simulation.snapshot
  { ctx with
    strand := { ctx.strand with
      startQueued := false
      sends := ctx.broadcastToParticipants created ++ ctx.broadcastToParticipants started
      resume := .scheduleTick } }

def handleTick (maxTicks : Nat) (ctx : SessionContext) (now : Int) : SessionContext :=
  if ctx.ended then ctx
  else
    let simulation := ctx.simulation.tickOnce
    let tickSent := ctx.tickSent + 1
    let snapshot := simulation.snapshot
    let state := SessionEvent.state ctx.id snapshot.tick snapshot.players now
    { ctx with
      simulation := simulation
      tickSent := tickSent
      strand := { ctx.strand with
        sends := ctx.broadcastToParticipants state
        resume := if tickSent ≥ maxTicks then .finishSession now else .scheduleTick } }

/-- The loop over the snapshot that looks for the greatest position. -/
def winner (players : List PlayerView) : Int :=
  (players.foldl
    (fun best player => if player.position > best.2 then (player.userId, player.position) else best)
    (0, intMin)).1

def finalRecord (ctx : SessionContext) (user1 user2 : SessionParticipant) (now : Int) : MatchResultRecord where
  sessionId := ctx.id
  user1Id := user1.userId
  user2Id := user2.userId
  winnerUserId := winner ctx.simulation.snapshot.players
  tickCount := ctx.simulation.snapshot.tick
  endedAt := now
  snapshot := ctx.simulation.snapshot

def finishSession (ctx : SessionContext) (now : Int) : SessionContext :=
  if ctx.ended then { ctx with strand := { ctx.strand with resume := .idle } }
  else
    let snapshot := ctx.simulation.snapshot
    let ended := SessionEvent.ended ctx.id "completed" (winner snapshot.players) snapshot.tick
    { ctx with
      ended := true
      strand := { ctx.strand with
        sends := ctx.broadcastToParticipants ended
        resume := match ctx.participants with
          | user1 :: user2 :: _ => .finalizeResult (ctx.finalRecord user1 user2 now)
          -- participants.at throws, and the handler is left
          | _ => .idle } }

/-- The handler SubmitInput dispatches to the strand and waits for. -/
def handleInput (ctx : SessionContext) (input : SessionInput) : SessionContext × Except Error Unit :=
  if ctx.ended then (ctx, .error ⟨"session_closed", "세션이 이미 종료되었습니다"⟩)
  else if input.userId ∉ ctx.participantMap then (ctx, .error ⟨"not_participant", "세션 참가자가 아닙니다"⟩)
  else
    let (simulation, validation) := ctx.simulation.enqueueInput input.command
    if validation.accepted then ({ ctx with simulation := simulation }, .ok ())
    else ({ ctx with simulation := simulation }, .error ⟨"input_invalid", validation.reason⟩)

def sent (ctx : SessionContext) : SessionContext :=
  { ctx with strand := { ctx.strand with sends := ctx.strand.sends.tail } }

def resumeAt (ctx : SessionContext) (resume : Resume) : SessionContext :=
  { ctx with strand := { ctx.strand with resume := resume } }

def disarm (ctx : SessionContext) : SessionContext :=
  { ctx with strand := { ctx.strand with timerArmed := false } }

def Finished (ctx : SessionContext) : Prop := ctx.ended = true ∧ ctx.strand.Free

instance (ctx : SessionContext) : Decidable ctx.Finished :=
  inferInstanceAs (Decidable (ctx.ended = true ∧ ctx.strand.Free))

end SessionContext

end GameServer
