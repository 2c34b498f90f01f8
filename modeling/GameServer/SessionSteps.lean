import GameServer.Consistency
import GameServer.ResultInvariant
import GameServer.StrandProgress

namespace GameServer

namespace SessionContext

def ticks (n r : Nat) : Nat := r * (n + 2) + (2 * n + 5)

def ahead (maxTicks : Nat) (ctx : SessionContext) : Nat :=
  match ctx.strand.resume with
  | .idle =>
    if ctx.ended then 0
    else (if ctx.strand.startQueued then 2 * ctx.participants.length + 2 else 0) +
      ticks ctx.participants.length (maxTicks - ctx.tickSent)
  | .scheduleTick => ticks ctx.participants.length (maxTicks - ctx.tickSent)
  | _ => 0

/-- The sections that a session still has to run. -/
def left (maxTicks : Nat) (ctx : SessionContext) : Nat := ctx.work + ctx.ahead maxTicks

/-- The timer has failed, and nothing will wake the session up. -/
def Stuck (ctx : SessionContext) : Prop :=
  ctx.strand.Free ∧ ctx.ended = false ∧ ctx.strand.startQueued = false ∧ ctx.strand.timerArmed = false

structure Spends (maxTicks : Nat) (ctx ctx' : SessionContext) : Prop where
  left : ctx'.left maxTicks + 1 = ctx.left maxTicks
  before : ¬ ctx.Stuck
  after : ¬ ctx'.Stuck

theorem not_stuck_of_busy {ctx : SessionContext} (h : ¬ ctx.strand.Free) : ¬ ctx.Stuck := fun hs => h hs.1

theorem left_free {maxTicks : Nat} {ctx : SessionContext} (hfree : ctx.strand.Free) (hopen : ctx.ended = false) :
    ctx.left maxTicks = (if ctx.strand.startQueued then 2 * ctx.participants.length + 2 else 0) +
      ticks ctx.participants.length (maxTicks - ctx.tickSent) := by
  simp [left, ahead, work, hfree.1, hfree.2, hopen, Resume.work]

theorem left_schedule {maxTicks : Nat} {ctx : SessionContext} (hr : ctx.strand.resume = .scheduleTick) :
    ctx.left maxTicks = ctx.strand.sends.length + 1 + ticks ctx.participants.length (maxTicks - ctx.tickSent) := by
  simp only [left, ahead, work, hr, Resume.work]

theorem left_finish {maxTicks : Nat} {ctx : SessionContext} (hi : ctx.strand.resume ≠ .idle)
    (hs : ctx.strand.resume ≠ .scheduleTick) : ctx.left maxTicks = ctx.work := by
  rw [left, ahead]
  split
  next hr => exact absurd hr hi
  next hr => exact absurd hr hs
  next => rfl

theorem Spends.start {maxTicks : Nat} {ctx : SessionContext} (h : ctx.Sound) (hfree : ctx.strand.Free)
    (hq : ctx.strand.startQueued = true) (now : Int) : ctx.Spends maxTicks (ctx.startSession now) where
  left := by
    rw [left_free hfree (h.start hfree hq now).2, if_pos hq, left_schedule rfl]
    simp only [startSession, broadcastToParticipants, List.length_append, List.length_map]
    omega
  before hs := by
    rw [hs.2.2.1] at hq
    cases hq
  after hs := by
    have hidle := hs.1.2
    cases hidle

theorem Spends.tick {maxTicks : Nat} {ctx : SessionContext} (h : ctx.Sound) (hplays : ctx.Plays maxTicks)
    (hfree : ctx.strand.Free) (ha : ctx.strand.timerArmed = true) (now : Int) :
    ctx.Spends maxTicks (ctx.disarm.handleTick maxTicks now) := by
  obtain ⟨hopen, hq⟩ := h.armed hfree ha
  have hlt := hplays.open_lt hopen (Or.inl hfree.2)
  have hbefore : ctx.left maxTicks = ticks ctx.participants.length (maxTicks - ctx.tickSent) := by
    rw [left_free hfree hopen, hq]
    simp
  obtain ⟨d, hd⟩ : ∃ d, d = ctx.disarm.handleTick maxTicks now := ⟨_, rfl⟩
  have hsends : d.strand.sends.length = ctx.participants.length := by
    simp [hd, handleTick, hopen, broadcastToParticipants, disarm]
  have hresume : d.strand.resume = if ctx.tickSent + 1 ≥ maxTicks then .finishSession now else .scheduleTick := by
    simp [hd, handleTick, hopen, disarm]
  have hcount : d.tickSent = ctx.tickSent + 1 := by
    simp [hd, handleTick, hopen, disarm]
  have hplayers : d.participants = ctx.participants := hd ▸ (handleTick_shape _ _ _).2.1
  rw [← hd]
  refine ⟨?_, ?_, ?_⟩
  · rw [hbefore]
    by_cases hlast : ctx.tickSent + 1 ≥ maxTicks
    · rw [if_pos hlast] at hresume
      have hone : maxTicks - ctx.tickSent = 1 := by omega
      rw [left_finish (by simp [hresume]) (by simp [hresume]), work, hsends, hresume, hplayers, hone, ticks,
        Resume.work]
      omega
    · rw [if_neg hlast] at hresume
      obtain ⟨r, hr⟩ : ∃ r, maxTicks - ctx.tickSent = r + 1 := ⟨maxTicks - ctx.tickSent - 1, by omega⟩
      have hnext : maxTicks - d.tickSent = r := by omega
      rw [left_schedule hresume, hsends, hplayers, hnext, hr, ticks, ticks, Nat.add_one_mul r]
      omega
  · intro hs
    rw [hs.2.2.2] at ha
    cases ha
  · intro hs
    have hidle := hs.1.2
    rw [hresume] at hidle
    split at hidle <;> cases hidle

theorem Spends.sent {maxTicks : Nat} {ctx : SessionContext} (h : ctx.Sound) (hs : ctx.strand.sends ≠ []) :
    ctx.Spends maxTicks ctx.sent where
  left := by
    have hlength : ctx.strand.sends.tail.length + 1 = ctx.strand.sends.length := by
      rw [List.length_tail]
      have := List.length_pos_of_ne_nil hs
      omega
    have hahead : ctx.sent.ahead maxTicks = ctx.ahead maxTicks := rfl
    rw [SessionContext.left, SessionContext.left, hahead]
    simp only [work, SessionContext.sent]
    omega
  before := not_stuck_of_busy fun hfree => hs hfree.1
  after := not_stuck_of_busy fun hfree => h.busy hs hfree.2

theorem Spends.scheduleTick {maxTicks : Nat} {ctx : SessionContext} (h : ctx.Sound) (hs : ctx.strand.sends = [])
    (hr : ctx.strand.resume = .scheduleTick) : ctx.Spends maxTicks ctx.scheduleTick where
  left := by
    have hstage := h.stage
    simp only [Stage, hr] at hstage
    have hfree : ctx.scheduleTick.strand.Free := ⟨hs, rfl⟩
    have hq : ctx.scheduleTick.strand.startQueued = false := hstage.1
    rw [left_free hfree hstage.2.2, left_schedule hr, hs, hq]
    simp only [SessionContext.scheduleTick, List.length_nil, Bool.false_eq_true, if_false]
    omega
  before := not_stuck_of_busy fun hfree => by
    rw [hfree.2] at hr
    cases hr
  after hstuck := by
    have harmed := hstuck.2.2.2
    cases harmed

theorem Spends.finish {maxTicks : Nat} {ctx : SessionContext} (h : ctx.Sound) (hs : ctx.strand.sends = [])
    {now : Int} (hr : ctx.strand.resume = .finishSession now) : ctx.Spends maxTicks (ctx.finishSession now) where
  left := by
    obtain ⟨p, q, hp, -⟩ := h.pair
    have hbefore : ctx.left maxTicks = ctx.work := left_finish (by simp [hr]) (by simp [hr])
    rw [hbefore, finishSession_open (h.finish hr).2.1 hp, left_finish (by simp) (by simp)]
    simp only [work, hs, hr, hp, Resume.work, broadcastToParticipants, List.length_map, List.length_cons,
      List.length_nil]
  before := not_stuck_of_busy fun hfree => by
    rw [hfree.2] at hr
    cases hr
  after := not_stuck_of_busy fun hfree => (h.finish hr).2.2 hfree.2

theorem Spends.resume {maxTicks : Nat} {ctx : SessionContext} (h : ctx.Sound) (hs : ctx.strand.sends = [])
    (hr : Finalizing ctx.strand.resume) {r : Resume} (hr' : r = .idle ∨ Finalizing r)
    (hwork : r.work ctx.participants.length + 1 = ctx.strand.resume.work ctx.participants.length) :
    ctx.Spends maxTicks (ctx.resumeAt r) := by
  have hended : ctx.ended = true := by
    have hstage := h.stage
    revert hr
    cases hcase : ctx.strand.resume <;> simp only [Stage, hcase] at hstage <;> simp [Finalizing, hstage]
  have hbusy : ctx.strand.resume ≠ .idle := by
    intro hidle
    rw [hidle] at hr
    exact hr
  have hleft : ctx.left maxTicks = ctx.strand.resume.work ctx.participants.length := by
    rw [left_finish hbusy ?_, work, hs, List.length_nil, Nat.zero_add]
    intro hschedule
    rw [hschedule] at hr
    exact hr
  refine ⟨?_, not_stuck_of_busy fun hfree => hbusy hfree.2, ?_⟩
  · have hahead : (ctx.resumeAt r).ahead maxTicks = 0 := by
      rcases hr' with rfl | hr'
      · simp [ahead, SessionContext.resumeAt, hended]
      · cases r with
        | finalizeResult | ensureUsers | release => rfl
        | idle | scheduleTick | finishSession => exact hr'.elim
    rw [hleft, ← hwork, SessionContext.left, hahead]
    simp [SessionContext.work, SessionContext.resumeAt, hs]
  · intro hstuck
    have hopen := hstuck.2.1
    rw [SessionContext.resumeAt, hended] at hopen
    cases hopen

theorem left_eq_zero_iff (maxTicks : Nat) {ctx : SessionContext} (h : ctx.Sound) :
    ctx.left maxTicks = 0 ↔ ctx.Finished := by
  have hstage := h.stage
  cases hr : ctx.strand.resume with
  | idle =>
      simp only [Stage, hr] at hstage
      have hfree : ctx.strand.Free := ⟨hstage.1, hr⟩
      cases hended : ctx.ended with
      | true => simp [left, ahead, SessionContext.work, Resume.work, Finished, hr, hstage.1, hended, hfree]
      | false =>
          rw [left_free hfree hended, Finished, hended, ticks]
          constructor
          · intro hzero
            omega
          · intro hfinished
            cases hfinished.1
  | scheduleTick | finishSession | finalizeResult | ensureUsers | release =>
      constructor
      · intro hzero
        simp [left, SessionContext.work, Resume.work, hr] at hzero
      · intro hfinished
        have hidle := hfinished.2.2
        rw [hr] at hidle
        cases hidle

end SessionContext

namespace Server

variable {D : Type} {cfg : Config D} {s t : Server} {k : Nat}

def ownStep (k : Nat) : Action → Bool
  | .startSession j _ | .proceed j => decide (j = k)
  | .timer j ok _ => ok && decide (j = k)
  | _ => false

def failedTimer (k : Nat) : Action → Bool
  | .timer j ok _ => !ok && decide (j = k)
  | _ => false

/-- What a step means for a session. -/
structure Advances (maxTicks k : Nat) (a : Action) (c d : SessionContext) : Prop where
  left : d.left maxTicks + (if ownStep k a then 1 else 0) = c.left maxTicks
  stuck : d.Stuck ↔ c.Stuck ∨ failedTimer k a = true
  awake : ownStep k a = true → ¬ c.Stuck

theorem Advances.spend {a : Action} {c d : SessionContext} (h : c.Spends cfg.maxTicks d) (hown : ownStep k a = true)
    (hok : failedTimer k a = false) : Advances cfg.maxTicks k a c d where
  left := by
    rw [if_pos hown]
    exact h.left
  stuck := by
    rw [hok]
    simp [h.before, h.after]
  awake _ := h.before

theorem Advances.stand {maxTicks : Nat} {a : Action} {c : SessionContext} (hown : ownStep k a = false)
    (hok : failedTimer k a = false) : Advances maxTicks k a c c where
  left := by simp [hown]
  stuck := by simp [hok]
  awake h := by
    rw [hown] at h
    cases h

theorem proceed_spends (hr : (machine cfg).Reachable s) {c : SessionContext} (hk : s.contexts[k]? = some c)
    (h : s.proceed cfg k c = some t) : ∃ d, t.contexts = s.contexts.set k d ∧ c.Spends cfg.maxTicks d := by
  have hi := reachable_inv hr
  have hsound := hi.sound k c hk
  rw [proceed] at h
  cases hs : c.strand.sends with
  | cons e es =>
      simp only [hs, Option.some.injEq] at h
      subst h
      exact ⟨_, rfl, .sent hsound (by simp [hs])⟩
  | nil =>
      cases hres : c.strand.resume with
      | idle => simp [hs, hres] at h
      | scheduleTick =>
          simp only [hs, hres, Option.some.injEq] at h
          subst h
          exact ⟨_, rfl, .scheduleTick hsound hs hres⟩
      | finishSession now =>
          simp only [hs, hres, Option.some.injEq] at h
          subst h
          exact ⟨_, rfl, .finish hsound hs hres⟩
      | finalizeResult record =>
          have hfresh := (reachable_resultInv hr).fresh hi hk hres
          simp only [hs, hres, ResultRepository.saveIfAbsent_new hfresh, if_true, Option.some.injEq] at h
          subst h
          refine ⟨_, rfl, .resume hsound hs (by simp [hres, SessionContext.Finalizing]) (Or.inr trivial) ?_⟩
          simp [hres, Resume.work, usersToEnsure]
      | ensureUsers record todo =>
          cases todo with
          | nil =>
              simp only [hs, hres, Option.some.injEq] at h
              subst h
              refine ⟨_, rfl, .resume hsound hs (by simp [hres, SessionContext.Finalizing]) (Or.inr trivial) ?_⟩
              simp [hres, Resume.work]
          | cons user todo =>
              simp only [hs, hres, Option.some.injEq] at h
              subst h
              refine ⟨_, rfl, .resume hsound hs (by simp [hres, SessionContext.Finalizing]) (Or.inr trivial) ?_⟩
              simp [hres, Resume.work]
      | release =>
          simp only [hs, hres, Option.some.injEq] at h
          subst h
          refine ⟨_, rfl, .resume hsound hs (by simp [hres, SessionContext.Finalizing]) (Or.inl rfl) ?_⟩
          simp [hres, Resume.work]

theorem advances_of_step (hn : 1 ≤ cfg.maxTicks) (hr : (machine cfg).Reachable s) {a : Action}
    (h : s.step cfg a = some t) {c : SessionContext} (hk : s.contexts[k]? = some c) :
    ∃ d : SessionContext, t.contexts[k]? = some d ∧ Advances cfg.maxTicks k a c d := by
  have hsound := (reachable_inv hr).sound k c hk
  have hself : ∀ d : SessionContext, (s.contexts.set k d)[k]? = some d :=
    fun d => List.getElem?_set_self (List.getElem?_eq_some_iff.mp hk).1
  cases a with
  | startSession j now =>
      obtain ⟨ctx, hj, h⟩ := Option.bind_eq_some_iff.mp h
      split at h
      next hg =>
        cases h
        by_cases hjk : j = k
        · subst hjk
          cases hk.symm.trans hj
          exact ⟨_, hself _, .spend (.start hsound hg.1 hg.2 now) (by simp [ownStep]) rfl⟩
        · exact ⟨c, getElem?_set_of_ne hk hjk, .stand (by simp [ownStep, hjk]) rfl⟩
      next => cases h
  | timer j ok now =>
      obtain ⟨ctx, hj, h⟩ := Option.bind_eq_some_iff.mp h
      split at h
      next hg =>
        cases h
        by_cases hjk : j = k
        · subst hjk
          cases hk.symm.trans hj
          cases ok with
          | true =>
              exact ⟨_, hself _, .spend (.tick hsound (reachable_plays hn hr hk) hg.1 hg.2 now) (by simp [ownStep]) rfl⟩
          | false =>
              obtain ⟨hopen, hq⟩ := hsound.armed hg.1 hg.2
              refine ⟨_, hself _, rfl, ?_, fun hown => by cases hown⟩
              · have hdead : c.disarm.Stuck := ⟨hg.1, hopen, hq, rfl⟩
                simp [failedTimer, hdead]
        · exact ⟨c, getElem?_set_of_ne hk hjk, .stand (by simp [ownStep, hjk]) (by simp [failedTimer, hjk])⟩
      next => cases h
  | proceed j =>
      obtain ⟨ctx, hj, h⟩ := Option.bind_eq_some_iff.mp h
      obtain ⟨d, hset, hspends⟩ := proceed_spends hr hj h
      rw [hset]
      by_cases hjk : j = k
      · subst hjk
        cases hk.symm.trans hj
        exact ⟨d, hself d, .spend hspends (by simp [ownStep]) rfl⟩
      · exact ⟨c, getElem?_set_of_ne hk hjk, .stand (by simp [ownStep, hjk]) rfl⟩
  | submitHandler n =>
      obtain ⟨call, -, h⟩ := Option.bind_eq_some_iff.mp h
      obtain ⟨ctx, hj, h⟩ := Option.bind_eq_some_iff.mp h
      split at h
      next =>
        cases h
        by_cases hjk : call.2 = k
        · subst hjk
          cases hk.symm.trans hj
          obtain ⟨hshape, hstrand, hended, htick⟩ := SessionContext.handleInput_frame c call.1
          refine ⟨_, hself _, ?_, ?_, fun hown => by cases hown⟩
          · simp [SessionContext.left, SessionContext.ahead, SessionContext.work, hstrand, hended, htick, hshape.2.1,
              ownStep]
          · simp [SessionContext.Stuck, hstrand, hended, failedTimer]
        · exact ⟨c, getElem?_set_of_ne hk hjk, .stand rfl rfl⟩
      next => cases h
  | joinCheck | joinPush | cancel | queueTick | pair | createSession | submitLookup | ensureUser =>
      refine ⟨c, ?_, .stand rfl rfl⟩
      rcases frame_of_step h with ⟨-, new, hnew⟩ | ⟨-, -, -, hsame | ⟨j, ctx, -, hturn⟩⟩
      · rw [hnew, List.getElem?_append_left (List.getElem?_eq_some_iff.mp hk).1]
        exact hk
      · rw [hsame]
        exact hk
      · cases hturn

theorem lt_of_own {a : Action} (h : s.step cfg a = some t) (ha : ownStep k a = true ∨ failedTimer k a = true) :
    k < s.contexts.length := by
  cases a with
  | startSession j now =>
      obtain ⟨ctx, hj, -⟩ := Option.bind_eq_some_iff.mp h
      obtain rfl : j = k := by simpa [ownStep, failedTimer] using ha
      exact (List.getElem?_eq_some_iff.mp hj).1
  | timer j ok now =>
      obtain ⟨ctx, hj, -⟩ := Option.bind_eq_some_iff.mp h
      obtain rfl : j = k := by cases ok <;> simpa [ownStep, failedTimer] using ha
      exact (List.getElem?_eq_some_iff.mp hj).1
  | proceed j =>
      obtain ⟨ctx, hj, -⟩ := Option.bind_eq_some_iff.mp h
      obtain rfl : j = k := by simpa [ownStep, failedTimer] using ha
      exact (List.getElem?_eq_some_iff.mp hj).1
  | _ => rcases ha with ha | ha <;> cases ha

theorem newContext_left (cfg : Config D) (s : Server) (first second : AuthUser) :
    (s.newContext cfg (pairParticipants first second)).left cfg.maxTicks = 4 * cfg.maxTicks + 15 ∧
      ¬ (s.newContext cfg (pairParticipants first second)).Stuck := by
  constructor
  · rw [SessionContext.left_free ⟨rfl, rfl⟩ rfl]
    simp only [newContext, pairParticipants, List.length_cons, List.length_nil, SessionContext.ticks, if_true]
    omega
  · rintro ⟨-, -, hq, -⟩
    cases hq

structure Counted (cfg : Config D) (as : List Action) (s : Server) (k : Nat) : Prop where
  made : ∀ c : SessionContext, s.contexts[k]? = some c →
    as.countP (ownStep k) + c.left cfg.maxTicks = 4 * cfg.maxTicks + 15 ∧ (c.Stuck ↔ as.any (failedTimer k) = true)
  unborn : s.contexts.length ≤ k → as.countP (ownStep k) = 0 ∧ as.any (failedTimer k) = false

theorem Counted.step (hn : 1 ≤ cfg.maxTicks) (hr : (machine cfg).Reachable s) {as : List Action}
    (hc : Counted cfg as s k) {a : Action} (h : s.step cfg a = some t) : Counted cfg (as ++ [a]) t k := by
  have hunowned : s.contexts.length ≤ k → ownStep k a = false ∧ failedTimer k a = false := by
    intro hlen
    constructor
    · by_contra hown
      exact absurd (lt_of_own h (Or.inl (by simpa using hown))) (Nat.not_lt.mpr hlen)
    · by_contra hfail
      exact absurd (lt_of_own h (Or.inr (by simpa using hfail))) (Nat.not_lt.mpr hlen)
  have hkept : s.contexts.length ≤ k →
      (as ++ [a]).countP (ownStep k) = 0 ∧ (as ++ [a]).any (failedTimer k) = false := by
    intro hlen
    obtain ⟨hcount, hany⟩ := hc.unborn hlen
    obtain ⟨hown, hfail⟩ := hunowned hlen
    rw [List.countP_append, List.any_append, hcount, hany]
    simp [hown, hfail]
  constructor
  · intro d hd
    rcases move_effect (effect_of_step h) k d hd with ⟨c, hk, -⟩ | ⟨hlen, first, second, -, rfl⟩
    · obtain ⟨hsum, hstuck⟩ := hc.made c hk
      obtain ⟨e, he, hadvance⟩ := advances_of_step hn hr h hk
      cases hd.symm.trans he
      constructor
      · have hleft := hadvance.left
        rw [List.countP_append, List.countP_singleton]
        omega
      · rw [hadvance.stuck, hstuck, List.any_append, Bool.or_eq_true]
        simp
    · obtain ⟨hcount, hany⟩ := hkept (Nat.le_of_eq hlen.symm)
      obtain ⟨hleft, halive⟩ := newContext_left cfg s first second
      rw [hcount, hany, hleft]
      simp [halive]
  · intro hlen
    apply hkept
    have hgrow : s.contexts.length ≤ t.contexts.length := by
      rcases frame_of_step h with ⟨-, new, hnew⟩ | ⟨-, -, -, hsame | ⟨j, ctx, -, hturn⟩⟩
      · rw [hnew, List.length_append]
        exact Nat.le_add_right _ _
      · rw [hsame]
      · obtain ⟨ctx', hset⟩ := hturn.contexts
        rw [hset, List.length_set]
    omega

theorem counted_of_run (hn : 1 ≤ cfg.maxTicks) {as : List Action} (h : (machine cfg).run as = some s) (k : Nat) :
    Counted cfg as s k := by
  refine Machine.run_induction (P := fun as s => Counted cfg as s k) ⟨?_, fun _ => ⟨rfl, rfl⟩⟩ ?_ h
  · intro c hk
    cases hk
  · intro as s a t hr hc ht
    exact hc.step hn hr ht

/-- The next section of the session is ready: it waits for no lock and for no
other handler. In a server it also waits for a worker thread, of which there may
be none, as SubmitInput can keep them all. -/
def SectionReady (cfg : Config D) (s : Server) (k : Nat) : Prop :=
  ∃ a t, ownStep k a = true ∧ s.step cfg a = some t

theorem ready_of_open {c : SessionContext} (hk : s.contexts[k]? = some c) (hopen : ¬ c.Finished)
    (halive : ¬ c.Stuck) : s.SectionReady cfg k := by
  by_cases hfree : c.strand.Free
  · have hended : c.ended = false := by
      by_contra he
      exact hopen ⟨by simpa using he, hfree⟩
    by_cases hq : c.strand.startQueued = true
    · exact ⟨.startSession k 0, s.setContext k (c.startSession 0), by simp [ownStep], by simp [step, hk, hfree, hq]⟩
    · have ha : c.strand.timerArmed = true := by
        by_contra ha
        exact halive ⟨hfree, hended, by simpa using hq, by simpa using ha⟩
      exact ⟨.timer k true 0, s.setContext k (c.disarm.handleTick cfg.maxTicks 0), by simp [ownStep],
        by simp [step, hk, hfree, ha]⟩
  · obtain ⟨t, ht, -⟩ := proceed_progress cfg s k hfree
    exact ⟨.proceed k, t, by simp [ownStep], by simp [step, hk, ht]⟩

/-- However the threads interleave, a session that is matched has 4N + 15
sections to run, and is finished when it has run them all. Until then the next
one is always ready for a free worker, unless the timer has failed. -/
theorem session_steps (hn : 1 ≤ cfg.maxTicks) {as : List Action} (h : (machine cfg).run as = some s)
    {c : SessionContext} (hk : s.contexts[k]? = some c) :
    as.countP (ownStep k) ≤ 4 * cfg.maxTicks + 15 ∧
      (c.Finished ↔ as.countP (ownStep k) = 4 * cfg.maxTicks + 15) ∧
      (¬ c.Finished → (s.SectionReady cfg k ↔ ∀ a ∈ as, failedTimer k a = false)) := by
  have hr : (machine cfg).Reachable s := .of_run h
  obtain ⟨hsum, hstuck⟩ := (counted_of_run hn h k).made c hk
  have hzero := SessionContext.left_eq_zero_iff cfg.maxTicks ((reachable_inv hr).sound k c hk)
  have hfailed : c.Stuck ↔ ∃ a ∈ as, failedTimer k a = true := by
    rw [hstuck, List.any_eq_true]
  refine ⟨by omega, ?_, ?_⟩
  · rw [← hzero]
    omega
  · intro hopen
    constructor
    · rintro ⟨a, t, hown, ht⟩ b hb
      by_contra hfail
      obtain ⟨d, -, hadvance⟩ := advances_of_step hn hr ht hk
      have hdead : c.Stuck := hfailed.mpr ⟨b, hb, by simpa using hfail⟩
      exact hadvance.awake hown hdead
    · intro hnone
      apply ready_of_open hk hopen
      rw [hfailed]
      rintro ⟨a, ha, hfail⟩
      rw [hnone a ha] at hfail
      cases hfail

theorem session_steps_of_play : ∃ as s c, (machine (evenConfig 1)).run as = some s ∧ s.contexts[0]? = some c ∧
    as.countP (ownStep 0) = 19 ∧ c.Finished := by
  have hrun : (((machine (evenConfig 1)).run (playActions ⟨1, "kim"⟩ ⟨2, "lee"⟩)).bind (·.contexts[0]?)).isSome =
      true := by
    decide
  obtain ⟨c, hc⟩ := Option.isSome_iff_exists.mp hrun
  obtain ⟨s, hs, hk⟩ := Option.bind_eq_some_iff.mp hc
  have hcount : (playActions ⟨1, "kim"⟩ ⟨2, "lee"⟩).countP (ownStep 0) = 19 := by
    decide
  exact ⟨_, s, c, hs, hk, hcount, (session_steps (Nat.le_refl 1) hs hk).2.1.mpr hcount⟩

end Server

end GameServer
