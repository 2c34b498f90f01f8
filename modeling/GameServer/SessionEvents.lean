import GameServer.Blocks
import GameServer.SessionPlay

namespace GameServer

open Simulation

def SessionEvent.heading : SessionEvent → String × Option Int
  | .created .. => ("session.created", none)
  | .started _ tick .. => ("session.started", some tick)
  | .state _ tick .. => ("session.state", some tick)
  | .ended .. => ("session.ended", none)

theorem SessionEvent.heading_ended (e : SessionEvent) :
    e.heading = ("session.ended", none) ↔ e.name = "session.ended" := by
  cases e <;> simp [heading, name]

/-- What a session sends before its end. -/
def openBlock (maxTicks : Nat) : List (String × Option Int) :=
  ("session.created", none) :: ("session.started", some 0) ::
    (List.range maxTicks).map fun (t : Nat) => ("session.state", some (t + 1 : Int))

def fullBlock (maxTicks : Nat) : List (String × Option Int) := openBlock maxTicks ++ [("session.ended", none)]

theorem openBlock_length (maxTicks : Nat) : (openBlock maxTicks).length = 2 + maxTicks := by
  simp only [openBlock, List.length_cons, List.length_map, List.length_range]
  omega

theorem fullBlock_state {maxTicks t : Nat} (h : t < maxTicks) :
    (fullBlock maxTicks)[2 + t]? = some ("session.state", some (t + 1 : Int)) := by
  rw [fullBlock, List.getElem?_append_left (by rw [openBlock_length]; omega), openBlock, Nat.add_comm 2 t,
    List.getElem?_cons_succ, List.getElem?_cons_succ, List.getElem?_map, List.getElem?_range h]
  rfl

theorem fullBlock_ended (maxTicks : Nat) : (fullBlock maxTicks)[2 + maxTicks]? = some ("session.ended", none) := by
  rw [fullBlock, List.getElem?_append_right (by rw [openBlock_length]), openBlock_length, Nat.sub_self]
  rfl

theorem ended_not_mem_openBlock (maxTicks : Nat) : ("session.ended", none) ∉ openBlock maxTicks := by
  simp [openBlock]

namespace SessionContext

def progress (ctx : SessionContext) : Nat :=
  if ctx.strand.startQueued then 0 else 2 + ctx.tickSent + if ctx.ended then 1 else 0

def pendingTo (ctx : SessionContext) (u : Int) : List SessionEvent :=
  (ctx.strand.sends.filter (·.1 = u)).map (·.2)

/-- The events of a session so far, sent or about to be sent. -/
structure Script (maxTicks : Nat) (ctx : SessionContext) (E : List SessionEvent) : Prop where
  headings : E.map (·.heading) = (fullBlock maxTicks).take ctx.progress
  own : ∀ e ∈ E, e.sessionId = ctx.id

structure Appends (maxTicks : Nat) (c d : SessionContext) (events : List SessionEvent) : Prop where
  shape : c.SameShape d
  pending : ∀ u ∈ c.userIds, d.pendingTo u = c.pendingTo u ++ events
  receivers : (∀ e ∈ c.strand.sends, e.1 ∈ c.userIds) → ∀ e ∈ d.strand.sends, e.1 ∈ c.userIds
  script : ∀ E, c.Script maxTicks E → d.Script maxTicks (E ++ events)
  finished : c.Finished → d.Finished

theorem pendingTo_broadcast {ctx : SessionContext} {p q : SessionParticipant} (hp : ctx.participants = [p, q])
    (hne : p.userId ≠ q.userId) {u : Int} (hu : u ∈ ctx.userIds) (e : SessionEvent) :
    ((ctx.broadcastToParticipants e).filter (·.1 = u)).map (·.2) = [e] := by
  have hcases : u = p.userId ∨ u = q.userId := by simpa [userIds, hp] using hu
  rcases hcases with rfl | rfl
  · simp [broadcastToParticipants, hp, Ne.symm hne]
  · simp [broadcastToParticipants, hp, hne]

theorem mem_broadcast {ctx : SessionContext} {event : SessionEvent} {e : Int × SessionEvent}
    (h : e ∈ ctx.broadcastToParticipants event) : e.1 ∈ ctx.userIds := by
  obtain ⟨p, hp, rfl⟩ := List.mem_map.mp h
  exact List.mem_map_of_mem hp

theorem Appends.nothing {maxTicks : Nat} {c d : SessionContext} (hshape : c.SameShape d)
    (hsends : d.strand.sends = c.strand.sends) (hprogress : d.progress = c.progress)
    (hfinished : c.Finished → d.Finished) : Appends maxTicks c d [] where
  shape := hshape
  pending := by
    intro u _
    rw [pendingTo, pendingTo, hsends, List.append_nil]
  receivers := by
    intro h
    rw [hsends]
    exact h
  script := by
    intro E h
    rw [List.append_nil]
    refine ⟨by rw [hprogress]; exact h.headings, ?_⟩
    rw [hshape.1]
    exact h.own
  finished := hfinished

theorem Script.concat {maxTicks : Nat} {c d : SessionContext} {E : List SessionEvent} (h : c.Script maxTicks E)
    {e : SessionEvent} (hid : d.id = c.id) (hprogress : d.progress = c.progress + 1) (he : e.sessionId = c.id)
    (hget : (fullBlock maxTicks)[c.progress]? = some e.heading) : d.Script maxTicks (E ++ [e]) where
  headings := by
    rw [List.map_append, h.headings, hprogress, List.take_add_one, hget]
    rfl
  own := by
    intro e' he'
    rw [hid]
    rcases List.mem_append.mp he' with hin | hin
    · exact h.own e' hin
    · rw [List.mem_singleton.mp hin]
      exact he

theorem appends_start {maxTicks : Nat} {c : SessionContext} (hs : c.Sound) (hplays : c.Plays maxTicks)
    (hfree : c.strand.Free) (hq : c.strand.startQueued = true) (now : Int) :
    ∃ events, Appends maxTicks c (c.startSession now) events := by
  obtain ⟨p, q, hp, hne⟩ := hs.pair
  have hopen := (hs.start hfree hq now).2
  have hzero := hplays.fresh hq
  refine ⟨[.created c.id now c.participants, .started c.id 0 c.tickInterval c.simulation.snapshot], ⟨rfl, rfl, rfl⟩,
    ?_, ?_, ?_, ?_⟩
  · intro u hu
    have hnone : c.pendingTo u = [] := by simp [pendingTo, hfree.1]
    rw [hnone, pendingTo]
    simp only [startSession, List.filter_append, List.map_append, pendingTo_broadcast hp hne hu]
    rfl
  · intro _ e he
    rcases List.mem_append.mp he with he | he <;> exact mem_broadcast he
  · intro E h
    have hnil : E = [] := by
      have hheadings := h.headings
      rw [progress, if_pos hq, List.take_zero] at hheadings
      exact List.map_eq_nil_iff.mp hheadings
    have htwo : (c.startSession now).progress = 2 := by simp [progress, startSession, hzero, hopen]
    subst hnil
    refine ⟨by rw [htwo]; rfl, ?_⟩
    simp [startSession, SessionEvent.sessionId]
  · intro hf
    exact absurd hf (not_finished_of_open hopen)

theorem appends_tick {maxTicks : Nat} {c : SessionContext} (hs : c.Sound) (hplays : c.Plays maxTicks)
    (hfree : c.strand.Free) (ha : c.strand.timerArmed = true) (now : Int) :
    ∃ events, Appends maxTicks c (c.disarm.handleTick maxTicks now) events := by
  obtain ⟨p, q, hp, hne⟩ := hs.pair
  obtain ⟨hopen, hstarted⟩ := hs.armed hfree ha
  obtain ⟨l, hl⟩ := hplays.ledger
  have hlt := hplays.open_lt hopen (Or.inl hfree.2)
  have hd : c.disarm.ended = false := hopen
  obtain ⟨state, hstate⟩ : ∃ e, e = SessionEvent.state c.id c.simulation.tickOnce.snapshot.tick
    c.simulation.tickOnce.snapshot.players now := ⟨_, rfl⟩
  have hsends : (c.disarm.handleTick maxTicks now).strand.sends = c.broadcastToParticipants state := by
    simp only [handleTick, hd, Bool.false_eq_true, if_false, hstate]
    rfl
  have hprogress : (c.disarm.handleTick maxTicks now).progress = c.progress + 1 := by
    have hq : c.disarm.strand.startQueued = false := hstarted
    have ht : c.disarm.tickSent = c.tickSent := rfl
    simp only [progress, handleTick, hd, hstarted, hopen, hq, ht, Bool.false_eq_true, if_false]
    omega
  refine ⟨[state], handleTick_shape _ _ _, ?_, ?_, ?_, ?_⟩
  · intro u hu
    have hnone : c.pendingTo u = [] := by simp [pendingTo, hfree.1]
    rw [hnone, pendingTo, hsends, pendingTo_broadcast hp hne hu, List.nil_append]
  · intro _ e he
    rw [hsends] at he
    exact mem_broadcast he
  · intro E h
    refine h.concat (handleTick_shape _ _ _).1 hprogress (by rw [hstate]; rfl) ?_
    have hcount : c.progress = 2 + c.tickSent := by simp [progress, hstarted, hopen]
    have htick : c.simulation.tickOnce.snapshot.tick = (c.tickSent : Int) + 1 := by
      have hnow : c.simulation.tickOnce.snapshot.tick = c.simulation.tickOnce.currentTick := rfl
      rw [hnow, tickOnce_currentTick, hl.represents.tick, hl.tick]
    rw [hcount, fullBlock_state hlt, hstate, SessionEvent.heading, htick]
  · intro hf
    exact absurd hf (not_finished_of_open hopen)

theorem appends_finish {maxTicks : Nat} {c : SessionContext} (hs : c.Sound) (hplays : c.Plays maxTicks)
    (hsends : c.strand.sends = []) {now : Int} (hr : c.strand.resume = .finishSession now) :
    ∃ events, Appends maxTicks c (c.finishSession now) events := by
  obtain ⟨p, q, hp, hne⟩ := hs.pair
  have hopen := (hs.finish hr).2.1
  have hstarted : c.strand.startQueued = false := by
    have hstage := hs.stage
    simp only [Stage, hr] at hstage
    exact hstage.1
  have hcount : c.tickSent = maxTicks := by
    have hclock := hplays.clock
    simpa only [Clock, hr] using hclock
  have hfin := finishSession_open hopen hp now
  refine ⟨[.ended c.id "completed" (winner c.simulation.snapshot.players) c.simulation.snapshot.tick],
    finishSession_shape _ _, ?_, ?_, ?_, ?_⟩
  · intro u hu
    have hnone : c.pendingTo u = [] := by simp [pendingTo, hsends]
    rw [hnone, pendingTo, hfin, pendingTo_broadcast hp hne hu, List.nil_append]
  · intro _ e he
    rw [hfin] at he
    exact mem_broadcast he
  · intro E h
    refine h.concat (finishSession_shape _ _).1 ?_ rfl ?_
    · rw [hfin]
      simp [progress, hstarted, hopen]
    · have hprogress : c.progress = 2 + maxTicks := by simp [progress, hstarted, hopen, hcount]
      rw [hprogress, fullBlock_ended]
      rfl
  · intro hf
    exact absurd hf (not_finished_of_open hopen)

theorem appends_disarm {maxTicks : Nat} (c : SessionContext) : Appends maxTicks c c.disarm [] :=
  .nothing ⟨rfl, rfl, rfl⟩ rfl rfl (fun hf => hf)

theorem appends_schedule {maxTicks : Nat} {c : SessionContext} (hr : c.strand.resume = .scheduleTick) :
    Appends maxTicks c c.scheduleTick [] := by
  refine .nothing ⟨rfl, rfl, rfl⟩ rfl rfl ?_
  intro hf
  rw [hf.2.2] at hr
  cases hr

theorem appends_resume {maxTicks : Nat} {c : SessionContext} (hr : c.strand.resume ≠ .idle) (r : Resume) :
    Appends maxTicks c (c.resumeAt r) [] :=
  .nothing ⟨rfl, rfl, rfl⟩ rfl rfl (fun hf => absurd hf.2.2 hr)

theorem appends_input {maxTicks : Nat} (c : SessionContext) (input : SessionInput) :
    Appends maxTicks c (c.handleInput input).1 [] := by
  obtain ⟨hshape, hstrand, hended, htick⟩ := handleInput_frame c input
  apply Appends.nothing hshape (by rw [hstrand])
  · rw [progress, progress, hstrand, hended, htick]
  · intro hf
    exact ⟨hended.trans hf.1, by rw [hstrand]; exact hf.2⟩

theorem progress_finished {maxTicks : Nat} {c : SessionContext} (hs : c.Sound) (hplays : c.Plays maxTicks)
    (hended : c.ended = true) :
    c.progress = (fullBlock maxTicks).length := by
  have hstarted : c.strand.startQueued = false := by
    have hstage := hs.stage
    simp only [Stage] at hstage
    split at hstage
    next =>
      by_contra hq
      rw [(hstage.2.1 (by simpa using hq)).2] at hended
      cases hended
    all_goals exact hstage.1
  have hcount : c.tickSent = maxTicks := by
    have hclock := hplays.clock
    rw [Clock] at hclock
    split at hclock
    next hfin => exact hclock
    next => simpa [hended] using hclock
  simp only [progress, hstarted, hended, hcount, fullBlock, List.length_append, openBlock_length, if_true,
    Bool.false_eq_true, if_false, List.length_cons, List.length_nil]

end SessionContext

end GameServer
