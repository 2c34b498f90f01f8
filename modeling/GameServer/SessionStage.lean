import GameServer.Session

namespace GameServer

namespace SessionContext

/-- Where a context is in its life, read off the point its handler has
reached. -/
def Stage (ctx : SessionContext) : Prop :=
  match ctx.strand.resume with
  | .idle => ctx.strand.sends = [] ∧
      (ctx.strand.startQueued = true → ctx.strand.timerArmed = false ∧ ctx.ended = false) ∧
      (ctx.ended = true → ctx.strand.timerArmed = false)
  | .scheduleTick | .finishSession _ =>
      ctx.strand.startQueued = false ∧ ctx.strand.timerArmed = false ∧ ctx.ended = false
  | .finalizeResult record =>
      ctx.strand.startQueued = false ∧ ctx.strand.timerArmed = false ∧ ctx.ended = true ∧
        ∃ p q now, ctx.participants = [p, q] ∧ record = ctx.finalRecord p q now
  | .ensureUsers record _ =>
      ctx.strand.startQueued = false ∧ ctx.strand.timerArmed = false ∧ ctx.ended = true ∧
        ctx.strand.sends = [] ∧ ∃ p q now, ctx.participants = [p, q] ∧ record = ctx.finalRecord p q now
  | .release =>
      ctx.strand.startQueued = false ∧ ctx.strand.timerArmed = false ∧ ctx.ended = true ∧
        ctx.strand.sends = []

structure Sound (ctx : SessionContext) : Prop where
  pair : ∃ p q, ctx.participants = [p, q] ∧ p.userId ≠ q.userId
  members : ∀ u, u ∈ ctx.participantMap ↔ u ∈ ctx.userIds
  stage : ctx.Stage

def Finalizing : Resume → Prop
  | .finalizeResult _ | .ensureUsers _ _ | .release => True
  | _ => False

/-- What one step does to the context it is about. -/
inductive Move (maxTicks : Nat) (ctx : SessionContext) : SessionContext → Prop
  | start (hfree : ctx.strand.Free) (hq : ctx.strand.startQueued = true) (now : Int) :
      Move maxTicks ctx (ctx.startSession now)
  | tick (hfree : ctx.strand.Free) (ha : ctx.strand.timerArmed = true) (now : Int) :
      Move maxTicks ctx (ctx.disarm.handleTick maxTicks now)
  | disarm (hfree : ctx.strand.Free) (ha : ctx.strand.timerArmed = true) : Move maxTicks ctx ctx.disarm
  | send (hs : ctx.strand.sends ≠ []) : Move maxTicks ctx ctx.sent
  | schedule (hs : ctx.strand.sends = []) (hr : ctx.strand.resume = .scheduleTick) :
      Move maxTicks ctx ctx.scheduleTick
  | finish (hs : ctx.strand.sends = []) {now : Int} (hr : ctx.strand.resume = .finishSession now) :
      Move maxTicks ctx (ctx.finishSession now)
  | resume (hs : ctx.strand.sends = []) (hr : Finalizing ctx.strand.resume) {r : Resume}
      (hr' : r = .idle ∨ Finalizing r) : Move maxTicks ctx (ctx.resumeAt r)
  | input (hfree : ctx.strand.Free) (input : SessionInput) : Move maxTicks ctx (ctx.handleInput input).1

def SameShape (ctx ctx' : SessionContext) : Prop :=
  ctx'.id = ctx.id ∧ ctx'.participants = ctx.participants ∧ ctx'.participantMap = ctx.participantMap

theorem Sound.reshape {ctx ctx' : SessionContext} (hs : ctx.Sound) (h : SameShape ctx ctx')
    (hstage : ctx'.Stage) : ctx'.Sound where
  pair := by rw [h.2.1]; exact hs.pair
  members := by rw [h.2.2, userIds, h.2.1]; exact hs.members
  stage := hstage

theorem Sound.start {ctx : SessionContext} (h : ctx.Sound) (hfree : ctx.strand.Free)
    (hq : ctx.strand.startQueued = true) (now : Int) : (ctx.startSession now).Sound ∧ ctx.ended = false := by
  have hstage := h.stage
  simp only [Stage, hfree.2] at hstage
  have hopen := hstage.2.1 hq
  exact ⟨h.reshape ⟨rfl, rfl, rfl⟩ ⟨rfl, hopen.1, hopen.2⟩, hopen.2⟩

theorem Sound.armed {ctx : SessionContext} (h : ctx.Sound) (hfree : ctx.strand.Free)
    (ha : ctx.strand.timerArmed = true) : ctx.ended = false ∧ ctx.strand.startQueued = false := by
  have hstage := h.stage
  simp only [Stage, hfree.2] at hstage
  constructor
  · by_contra he
    simp [hstage.2.2 (by simpa using he)] at ha
  · by_contra hq
    simp [(hstage.2.1 (by simpa using hq)).1] at ha

theorem Sound.disarm {ctx : SessionContext} (h : ctx.Sound) (hfree : ctx.strand.Free)
    (ha : ctx.strand.timerArmed = true) : ctx.disarm.Sound := by
  have hopen := h.armed hfree ha
  refine h.reshape ⟨rfl, rfl, rfl⟩ ?_
  simp [Stage, SessionContext.disarm, hfree.1, hfree.2, hopen]

theorem handleTick_ended (maxTicks : Nat) (ctx : SessionContext) (now : Int) :
    (ctx.handleTick maxTicks now).ended = ctx.ended := by
  rw [handleTick]
  split <;> simp_all

theorem handleTick_shape (maxTicks : Nat) (ctx : SessionContext) (now : Int) :
    SameShape ctx (ctx.handleTick maxTicks now) := by
  rw [handleTick]
  split <;> exact ⟨rfl, rfl, rfl⟩

theorem Sound.tick {ctx : SessionContext} (h : ctx.Sound) (hfree : ctx.strand.Free)
    (ha : ctx.strand.timerArmed = true) (maxTicks : Nat) (now : Int) :
    (ctx.disarm.handleTick maxTicks now).Sound := by
  have hopen := h.armed hfree ha
  have hdis : ctx.disarm.ended = false := hopen.1
  apply (h.disarm hfree ha).reshape (handleTick_shape _ _ _)
  simp only [handleTick, hdis, Bool.false_eq_true, if_false]
  by_cases hlast : ctx.disarm.tickSent + 1 ≥ maxTicks
  · simp only [hlast, if_true]
    exact ⟨hopen.2, rfl, rfl⟩
  · simp only [hlast, if_false]
    exact ⟨hopen.2, rfl, rfl⟩

theorem Sound.busy {ctx : SessionContext} (h : ctx.Sound) (hs : ctx.strand.sends ≠ []) :
    ctx.strand.resume ≠ .idle := by
  intro hi
  have hstage := h.stage
  simp only [Stage, hi] at hstage
  exact hs hstage.1

theorem Sound.sent {ctx : SessionContext} (h : ctx.Sound) (hs : ctx.strand.sends ≠ []) : ctx.sent.Sound := by
  have hbusy := h.busy hs
  refine h.reshape ⟨rfl, rfl, rfl⟩ ?_
  have hstage := h.stage
  rw [Stage] at hstage ⊢
  simp only [SessionContext.sent]
  cases hr : ctx.strand.resume with
  | idle => exact absurd hr hbusy
  | scheduleTick | finishSession | finalizeResult => simp only [hr] at hstage ⊢; exact hstage
  | ensureUsers => simp only [hr] at hstage; exact absurd hstage.2.2.2.1 hs
  | release => simp only [hr] at hstage; exact absurd hstage.2.2.2 hs

theorem Sound.scheduleTick {ctx : SessionContext} (h : ctx.Sound) (hs : ctx.strand.sends = [])
    (hr : ctx.strand.resume = .scheduleTick) : ctx.scheduleTick.Sound ∧ ctx.ended = false := by
  have hstage := h.stage
  simp only [Stage, hr] at hstage
  refine ⟨h.reshape ⟨rfl, rfl, rfl⟩ ?_, hstage.2.2⟩
  simp [Stage, SessionContext.scheduleTick, hs, hstage]

theorem finishSession_shape (ctx : SessionContext) (now : Int) : SameShape ctx (ctx.finishSession now) := by
  rw [finishSession]
  split <;> exact ⟨rfl, rfl, rfl⟩

theorem finishSession_open {ctx : SessionContext} (hopen : ctx.ended = false) {p q : SessionParticipant}
    (hp : ctx.participants = [p, q]) (now : Int) :
    ctx.finishSession now =
      { ctx with
        ended := true
        strand := { ctx.strand with
          sends := ctx.broadcastToParticipants (.ended ctx.id "completed"
            (winner ctx.simulation.snapshot.players) ctx.simulation.snapshot.tick)
          resume := .finalizeResult (ctx.finalRecord p q now) } } := by
  simp [finishSession, hopen, hp]

theorem Sound.finish {ctx : SessionContext} (h : ctx.Sound) {now : Int}
    (hr : ctx.strand.resume = .finishSession now) :
    (ctx.finishSession now).Sound ∧ ctx.ended = false ∧ (ctx.finishSession now).strand.resume ≠ .idle := by
  have hstage := h.stage
  simp only [Stage, hr] at hstage
  obtain ⟨p, q, hp, -⟩ := h.pair
  have hfin := finishSession_open hstage.2.2 hp now
  refine ⟨h.reshape (finishSession_shape _ _) ?_, hstage.2.2, by rw [hfin]; simp⟩
  rw [hfin]
  exact ⟨hstage.1, hstage.2.1, rfl, p, q, now, hp, rfl⟩

theorem Sound.finalize {ctx : SessionContext} (h : ctx.Sound) (hs : ctx.strand.sends = [])
    {record : MatchResultRecord} (hr : ctx.strand.resume = .finalizeResult record)
    (todo : List (Int × String)) :
    (ctx.resumeAt (.ensureUsers record todo)).Sound ∧ (ctx.resumeAt .release).Sound := by
  have hstage := h.stage
  simp only [Stage, hr] at hstage
  obtain ⟨hq, ha, he, hrec⟩ := hstage
  exact ⟨h.reshape ⟨rfl, rfl, rfl⟩ ⟨hq, ha, he, hs, hrec⟩, h.reshape ⟨rfl, rfl, rfl⟩ ⟨hq, ha, he, hs⟩⟩

theorem Sound.ensure {ctx : SessionContext} (h : ctx.Sound) {record : MatchResultRecord}
    {todo : List (Int × String)} (hr : ctx.strand.resume = .ensureUsers record todo)
    (todo' : List (Int × String)) :
    (ctx.resumeAt (.ensureUsers record todo')).Sound ∧ (ctx.resumeAt .release).Sound := by
  have hstage := h.stage
  simp only [Stage, hr] at hstage
  obtain ⟨hq, ha, he, hs, hrec⟩ := hstage
  exact ⟨h.reshape ⟨rfl, rfl, rfl⟩ ⟨hq, ha, he, hs, hrec⟩, h.reshape ⟨rfl, rfl, rfl⟩ ⟨hq, ha, he, hs⟩⟩

theorem Sound.released {ctx : SessionContext} (h : ctx.Sound) (hr : ctx.strand.resume = .release) :
    (ctx.resumeAt .idle).Sound ∧ (ctx.resumeAt .idle).Finished := by
  have hstage := h.stage
  simp only [Stage, hr] at hstage
  obtain ⟨hq, ha, he, hs⟩ := hstage
  refine ⟨h.reshape ⟨rfl, rfl, rfl⟩ ?_, he, hs, rfl⟩
  simp [Stage, resumeAt, hq, ha, hs]

theorem handleInput_frame (ctx : SessionContext) (input : SessionInput) :
    SameShape ctx (ctx.handleInput input).1 ∧ (ctx.handleInput input).1.strand = ctx.strand ∧
      (ctx.handleInput input).1.ended = ctx.ended ∧ (ctx.handleInput input).1.tickSent = ctx.tickSent := by
  rw [handleInput]
  split
  next => exact ⟨⟨rfl, rfl, rfl⟩, rfl, rfl, rfl⟩
  next =>
    split
    next => exact ⟨⟨rfl, rfl, rfl⟩, rfl, rfl, rfl⟩
    next =>
      dsimp only
      split <;> exact ⟨⟨rfl, rfl, rfl⟩, rfl, rfl, rfl⟩

theorem handleInput_ok {ctx : SessionContext} {input : SessionInput} (h : (ctx.handleInput input).2 = .ok ()) :
    ctx.ended = false ∧ input.userId ∈ ctx.participantMap ∧
      ctx.simulation.validateInput input.command = .ok () ∧
      (ctx.handleInput input).1 = { ctx with simulation := ctx.simulation.push input.command } := by
  by_cases he : ctx.ended = true
  · simp [handleInput, he] at h
  by_cases hu : input.userId ∈ ctx.participantMap
  · cases hv : ctx.simulation.validateInput input.command with
    | error reason => simp [handleInput, he, hu, Simulation.enqueueInput, hv] at h
    | ok u =>
        refine ⟨by simpa using he, hu, rfl, ?_⟩
        simp [handleInput, he, hu, Simulation.enqueueInput, hv]
  · simp [handleInput, he, hu] at h

theorem handleInput_error {ctx : SessionContext} {input : SessionInput} {e : Error}
    (h : (ctx.handleInput input).2 = .error e) : (ctx.handleInput input).1 = ctx ∧
      (e.code = "session_closed" ∨ (e.code = "not_participant" ∧ input.userId ∉ ctx.participantMap) ∨
        e.code = "input_invalid") := by
  by_cases he : ctx.ended = true
  · have hh : ctx.handleInput input = (ctx, .error ⟨"session_closed", "세션이 이미 종료되었습니다"⟩) := by
      simp [handleInput, he]
    rw [hh] at h ⊢
    cases h
    exact ⟨rfl, Or.inl rfl⟩
  by_cases hu : input.userId ∈ ctx.participantMap
  · cases hv : ctx.simulation.validateInput input.command with
    | error reason =>
        have hh : ctx.handleInput input = (ctx, .error ⟨"input_invalid", reason⟩) := by
          rw [handleInput]
          rw [if_neg he, if_neg (not_not.mpr hu), Simulation.enqueueInput, hv]
          rfl
        rw [hh] at h ⊢
        cases h
        exact ⟨rfl, Or.inr (Or.inr rfl)⟩
    | ok u => simp [handleInput, he, hu, Simulation.enqueueInput, hv] at h
  · have hh : ctx.handleInput input = (ctx, .error ⟨"not_participant", "세션 참가자가 아닙니다"⟩) := by
      simp [handleInput, he, hu]
    rw [hh] at h ⊢
    cases h
    exact ⟨rfl, Or.inr (Or.inl ⟨rfl, hu⟩)⟩

theorem Sound.input {ctx : SessionContext} (h : ctx.Sound) (hfree : ctx.strand.Free) (input : SessionInput) :
    (ctx.handleInput input).1.Sound := by
  obtain ⟨hshape, hstrand, hended, -⟩ := handleInput_frame ctx input
  apply h.reshape hshape
  have hstage := h.stage
  simp only [Stage, hstrand, hended, hfree.2] at hstage ⊢
  exact hstage

theorem not_finished_of_open {ctx : SessionContext} (h : ctx.ended = false) : ¬ ctx.Finished := by
  rintro ⟨he, -⟩
  rw [h] at he
  cases he

theorem not_finished_of_busy {ctx : SessionContext} (h : ctx.strand.resume ≠ .idle) : ¬ ctx.Finished :=
  fun hf => h hf.2.2

end SessionContext

end GameServer
